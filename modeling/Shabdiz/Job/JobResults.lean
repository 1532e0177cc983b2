import Shabdiz.Job.JobMachine

/-!
# The result of a job

A future is completed by whoever comes first: the handler of a callback, the caller who cancels it,
the continuation of its submission, or the shutdown of the network. The id is what ties an answer
to a future, and it passes through three parties: the launcher registers it, a worker runs a job
under it, and the callback brings it back. The invariant follows it through all of them.

## Main definitions

* `JobLog`, `LoggedBy` — a worker notifies the launcher of what its jobs ended in
* `Genuine` — a callback says what a job of the network ended in, or its id is nobody's
* `Source` — where an outcome comes from

## Main results

* `jobLog_of_reachable`, `genuine_of_onTheWay`, `source_of_outcome` — the invariant, party by
  party
* `job_results` — every future ends once, and with the outcome of its own job, the failure of its
  own submission, its own cancellation or the shutdown
-/

namespace Shabdiz

open WorkerNetwork NetworkConfig

variable {ω ι J V E : Type}

/-! ### The worker -/

/-- What a worker accepts, queues, runs and notifies the launcher of are the jobs submitted to
it. -/
structure JobLog (w : DefaultWorkerRemote ι J V E) : Prop where
  accepted : ∀ id, .accepted id ∈ w.log → ∃ job, .submitted id job ∈ w.log
  queue : ∀ id job, (id, job) ∈ w.queue → .submitted id job ∈ w.log
  ended : ∀ id job o, .ended id job o ∈ w.log → .submitted id job ∈ w.log
  notified : ∀ id o, .notified id o ∈ w.log → ∃ job, .ended id job o ∈ w.log

/-- What a call on a worker is about to do is due to a job submitted to it. -/
def RunLogged (i : ι) (w : DefaultWorkerRemote ι J V E) :
    Thread (WorkerOperation ι J) (WorkerCall ι J V E) → Prop
  | .running (.submit job .registered) => .submitted i job ∈ w.log
  | .running (.run (.begun id job)) => .submitted id job ∈ w.log
  | .running (.run (.calling id job)) => .submitted id job ∈ w.log
  | .running (.run (.ended id o)) => ∃ job, .ended id job o ∈ w.log
  | .running (.run (.completed id o)) => ∃ job, .ended id job o ∈ w.log
  | _ => True

/-- The part of the invariant about call `i` of a worker. -/
structure LoggedBy (i : ι) (w : DefaultWorkerRemote ι J V E)
    (t : Thread (WorkerOperation ι J) (WorkerCall ι J V E)) : Prop where
  submitted : ∀ job, .submitted i job ∈ w.log → ∃ p, t = .running (.submit job p)
  run : RunLogged i w t

section Worker

variable [DecidableEq ι] [DecidableEq J] {i j : ι} {answer : WorkerRemoteAnswer ι V E}
  {w w' : DefaultWorkerRemote ι J V E} {k k' : WorkerCall ι J V E}

omit [DecidableEq ι] [DecidableEq J] in
theorem RunLogged.mono {t : Thread (WorkerOperation ι J) (WorkerCall ι J V E)}
    (h : RunLogged i w t) (hlog : ∀ e ∈ w.log, e ∈ w'.log) : RunLogged i w' t := by
  unfold RunLogged at h ⊢
  split at h
  · exact hlog _ h
  · exact hlog _ h
  · exact hlog _ h
  · exact h.imp fun _ => hlog _
  · exact h.imp fun _ => hlog _
  · trivial

omit [DecidableEq ι] [DecidableEq J] in
/-- What is accepted, queued, ended or notified of is so already, or is due to a submission or to
the end of a job. -/
theorem JobLog.grow (h : JobLog w) (hlog : ∀ e ∈ w.log, e ∈ w'.log)
    (haccepted : ∀ id, .accepted id ∈ w'.log →
      .accepted id ∈ w.log ∨ ∃ job, .submitted id job ∈ w.log)
    (hqueue : ∀ id job, (id, job) ∈ w'.queue → (id, job) ∈ w.queue ∨ .submitted id job ∈ w.log)
    (hended : ∀ id job o, .ended id job o ∈ w'.log →
      .ended id job o ∈ w.log ∨ .submitted id job ∈ w.log)
    (hnotified : ∀ id o, .notified id o ∈ w'.log →
      .notified id o ∈ w.log ∨ ∃ job, .ended id job o ∈ w.log) : JobLog w' where
  accepted id hmem := ((haccepted id hmem).elim (h.accepted id) fun h => h).imp fun _ => hlog _
  queue id job hmem := hlog _ ((hqueue id job hmem).elim (h.queue id job) fun h => h)
  ended id job o hmem := hlog _ ((hended id job o hmem).elim (h.ended id job o) fun h => h)
  notified id o hmem := ((hnotified id o hmem).elim (h.notified id o) fun h => h).imp
    fun _ => hlog _

/-- **The step lemma**, for a worker. -/
theorem JobLog.step (h : JobLog w) (hk : RunLogged i w (.running k))
    (hs : WorkerStep i answer w k w' k') : JobLog w' := by
  have hlog : ∀ e ∈ w.log, e ∈ w'.log := fun e he => hs.log_mono he
  cases hs with
  | @enqueue job hopen =>
    refine h.grow hlog (fun id hmem => ?_) (fun id job hmem => ?_) (by simp +contextual)
      (by simp +contextual)
    · obtain hmem | hmem := List.mem_append.mp hmem
      · exact Or.inl hmem
      · obtain rfl := WorkerEvent.accepted.inj (List.mem_singleton.mp hmem)
        exact Or.inr ⟨job, hk⟩
    · obtain hmem | hmem := List.mem_append.mp hmem
      · exact Or.inl hmem
      · obtain ⟨rfl, rfl⟩ := Prod.mk.inj (List.mem_singleton.mp hmem)
        exact Or.inr hk
  | take =>
    exact h.grow hlog (by simp +contextual) (fun _ _ hmem => Or.inl (List.mem_of_mem_erase hmem))
      (by simp +contextual) (by simp +contextual)
  | @ends id job outcome =>
    refine h.grow hlog (by simp +contextual) (by simp +contextual) (fun id' job' o hmem => ?_)
      (by simp +contextual)
    obtain hmem | hmem := List.mem_append.mp hmem
    · exact Or.inl hmem
    · obtain ⟨rfl, rfl, rfl⟩ := WorkerEvent.ended.inj (List.mem_singleton.mp hmem)
      exact Or.inr hk
  | @notify id outcome =>
    refine h.grow hlog (by simp +contextual) (by simp +contextual) (by simp +contextual)
      fun id' o hmem => ?_
    obtain hmem | hmem := List.mem_append.mp hmem
    · exact Or.inl hmem
    · obtain ⟨rfl, rfl⟩ := WorkerEvent.notified.inj (List.mem_singleton.mp hmem)
      exact Or.inr hk
  | _ =>
    exact h.grow hlog (by simp +contextual) (by simp +contextual) (by simp +contextual)
      (by simp +contextual)

/-- **The step lemma**, for the call that takes the step. -/
theorem RunLogged.step (h : JobLog w) (hk : RunLogged i w (.running k))
    (hs : WorkerStep i answer w k w' k') : RunLogged i w' (.running k') := by
  cases hs with
  | put => exact List.mem_append_right _ (List.mem_singleton_self _)
  | take hmem => exact List.mem_append_left _ (h.queue _ _ hmem)
  | call => exact List.mem_append_left _ hk
  | ends => exact ⟨_, List.mem_append_right _ (List.mem_singleton_self _)⟩
  | complete => exact hk
  | _ => trivial

/-- A job is put into `submitted_jobs` by its own call. -/
theorem WorkerStep.submitted (hs : WorkerStep i answer w k w' k') {id : ι} {job : J}
    (hmem : .submitted id job ∈ w'.log) :
    .submitted id job ∈ w.log ∨ id = i ∧ k = .submit job .entry := by
  cases hs with
  | put =>
    obtain hmem | hmem := List.mem_append.mp hmem
    · exact Or.inl hmem
    · obtain ⟨rfl, rfl⟩ := WorkerEvent.submitted.inj (List.mem_singleton.mp hmem)
      exact Or.inr ⟨rfl, rfl⟩
  | _ => exact Or.inl (by simpa using hmem)

theorem WorkerStep.operation_eq (hs : WorkerStep i answer w k w' k') :
    k'.operation = k.operation := by
  cases hs <;> rfl

omit [DecidableEq ι] [DecidableEq J] in
theorem WorkerCall.eq_submit {k : WorkerCall ι J V E} {job : J} (h : k.operation = .submit job) :
    ∃ p, k = .submit job p := by
  cases k with
  | submit job' p =>
    obtain rfl := WorkerOperation.submit.inj h
    exact ⟨p, rfl⟩
  | _ => cases h

theorem jobLog_of_reachable {c : WorkerConfig ι J V E}
    (h : (workerMachine ι J V E).Reachable c) :
    JobLog c.shared ∧ ∀ i, LoggedBy i c.shared (c.thread i) := by
  refine worker_invariant h
    ⟨⟨by simp, by simp, by simp, by simp⟩, fun i o => ⟨by simp, trivial⟩⟩ ?_ ?_ ?_
  · intro c i o _ hc ho
    refine ⟨fun job hmem => ?_, by cases o <;> trivial⟩
    obtain ⟨p, hp⟩ := (hc i).submitted job hmem
    rw [ho] at hp
    cases hp
  · intro c i answer k w' k' _ hG hc _ hk hs
    have hrun := (hc i).run
    rw [hk] at hrun
    refine ⟨hG.step hrun hs, fun job hmem => ?_, RunLogged.step hG hrun hs⟩
    have hop : k.operation = .submit job := by
      obtain hmem | ⟨-, rfl⟩ := hs.submitted hmem
      · obtain ⟨p, hp⟩ := (hc i).submitted job hmem
        rw [hk] at hp
        obtain rfl := Thread.running.inj hp
        rfl
      · rfl
    obtain ⟨p, rfl⟩ := WorkerCall.eq_submit (hs.operation_eq.trans hop)
    exact ⟨p, rfl⟩
  · intro c i answer k w' k' j _ _ hc _ _ hs hj
    refine ⟨fun job hmem => ?_, (hc j).run.mono fun _ => hs.log_mono⟩
    exact (hc j).submitted job ((hs.submitted hmem).resolve_right fun h => hj h.1)

end Worker

/-! ### The callbacks -/

variable [DecidableEq ω] [DecidableEq ι] [DecidableEq J] [DecidableEq V] [DecidableEq E]

/-- A worker has recorded that it sends this callback; or no job has its id. -/
def Genuine (c : NetworkConfig ω ι J V E) (callback : Callback ω ι V E) : Prop :=
  match callback.sender with
  | some w => .notified callback.id callback.outcome ∈ (c.workers w).shared.log
  | none => ∀ w job, c.operation callback.id ≠ .submit w job

section Step

variable {c c' : NetworkConfig ω ι J V E} {a : NetworkAction ω ι V E}
  {callback : Callback ω ι V E}

omit [DecidableEq ω] [DecidableEq ι] [DecidableEq J] [DecidableEq V] [DecidableEq E] in
theorem Genuine.mono (h : Genuine c callback) (hg : c.Grows c') : Genuine c' callback := by
  unfold Genuine at h ⊢
  split at h
  · exact hg.workerLog _ _ h
  · intro w job
    rw [hg.operation]
    exact h w job

omit [DecidableEq J] in
/-- A thread handles what was in flight. -/
theorem LauncherStep.handles_eq_some {i : ι} {answer : LauncherAnswer ω ι V E}
    {n n' : WorkerNetwork ω ι J V E} {k k' : LauncherCall ω ι J V E}
    (hs : LauncherStep i answer n k n' k') (h : handles (.running k') = some callback) :
    handles (.running k) = some callback ∨ callback ∈ n.inFlight := by
  cases hs with
  | receive hmem =>
    obtain rfl := Option.some.inj h
    exact Or.inr hmem
  | know => exact Or.inl h
  | _ => cases h

omit [DecidableEq J] in
theorem LauncherStep.mem_inFlight {i : ι} {answer : LauncherAnswer ω ι V E}
    {n n' : WorkerNetwork ω ι J V E} {k k' : LauncherCall ω ι J V E}
    (hs : LauncherStep i answer n k n' k') (h : callback ∈ n'.inFlight) :
    callback ∈ n.inFlight := by
  cases hs with
  | receive => exact List.mem_of_mem_erase h
  | _ => exact h

/-- **Where callbacks come from.** -/
theorem NetworkStep.onTheWay (hs : NetworkStep c a c') (h : OnTheWay c' callback) :
    OnTheWay c callback ∨ Genuine c' callback := by
  obtain h | ⟨j, h⟩ := h
  · cases hs with
    | launcher _ _ hn => exact Or.inl (Or.inl (hn.mem_inFlight h))
    | @worker w i answer worker halive hshipped hstep =>
      obtain h | h := List.mem_append.mp h
      · exact Or.inl (Or.inl h)
      · obtain ⟨hsender, hmem⟩ := mem_callbacksOf.mp h
        refine Or.inr ?_
        unfold Genuine
        rw [hsender]
        change .notified _ _ ∈ (Function.update c.workers w worker w).shared.log
        rw [Function.update_self]
        exact List.mem_of_mem_drop hmem
    | duplicate hmem =>
      obtain h | h := List.mem_append.mp h
      · exact Or.inl (Or.inl h)
      · exact Or.inl (Or.inl (List.mem_singleton.mp h ▸ hmem))
    | lose => exact Or.inl (Or.inl (List.mem_of_mem_erase h))
    | stray hid =>
      obtain h | h := List.mem_append.mp h
      · exact Or.inl (Or.inl h)
      · obtain rfl := List.mem_singleton.mp h
        exact Or.inr hid
    | _ => exact Or.inl (Or.inl h)
  · obtain heq | ⟨o, -, heq, -⟩ | ⟨answer, k, k', hk, heq, hn⟩ := hs.thread_cases j
    · rw [heq] at h
      exact Or.inl (Or.inr ⟨j, h⟩)
    · rw [heq] at h
      cases o <;> cases h
    · rw [heq] at h
      obtain h | h := hn.handles_eq_some h
      · exact Or.inl (Or.inr ⟨j, hk ▸ h⟩)
      · exact Or.inl (Or.inl h)

/-- **Every callback on its way is genuine.** -/
theorem genuine_of_onTheWay (h : (jobMachine ω ι J V E).Reachable c)
    (hcallback : OnTheWay c callback) : Genuine c callback := by
  refine network_invariant (I := fun c => ∀ callback, OnTheWay c callback → Genuine c callback) h
    (fun c hc callback hcallback => ?_) ?_ callback hcallback
  · obtain hmem | ⟨j, hj⟩ := hcallback
    · rw [network_of_init hc] at hmem
      cases hmem
    · obtain ⟨o, ho⟩ := thread_of_init hc j
      rw [ho] at hj
      cases hj
  · intro c a c' hr hc _ hs callback hcallback
    obtain h | h := hs.onTheWay hcallback
    · exact (hc callback h).mono (hs.grows (bookkeeping_of_reachable hr))
    · exact h

/-! ### The requests -/

omit [DecidableEq V] [DecidableEq E] in
/-- A call of `submit` on a worker goes on, or begins with a job shipped to the worker. -/
theorem submit_of_step {w : ω} {worker : WorkerConfig ι J V E} {i id : ι}
    {answer : WorkerRemoteAnswer ι V E} {job : J} {p : DefaultWorkerRemote.SubmitPoint}
    (hshipped : shipped c w i = true)
    (h : (workerMachine ι J V E).step (c.workers w) (i, answer) = some worker)
    (hp : worker.thread id = .running (.submit job p)) :
    (∃ p', (c.workers w).thread id = .running (.submit job p')) ∨
      c.network.requests id = some (w, job) := by
  by_cases hi : id = i
  · subst hi
    obtain ⟨o, ho, rfl⟩ | ⟨k, w', k', hk, hn, rfl⟩ := Interleaving.step_cases h
    · change Function.update (c.workers w).thread id (.running o.start) id = _ at hp
      rw [Function.update_self] at hp
      have hop : o = .submit job := by
        rw [← WorkerCall.operation_start (V := V) (E := E) o]
        exact congrArg WorkerCall.operation (Thread.running.inj hp)
      rw [shipped, ho, hop] at hshipped
      exact Or.inr (of_decide_eq_true hshipped)
    · change Function.update (c.workers w).thread id (.running k') id = _ at hp
      rw [Function.update_self] at hp
      obtain rfl := Thread.running.inj hp
      obtain ⟨p', rfl⟩ := WorkerCall.eq_submit (WorkerCall.operation_next hn).symm
      exact Or.inl ⟨p', hk⟩
  · rw [Interleaving.thread_step_of_ne h hi] at hp
    exact Or.inl ⟨p, hp⟩

/-- A worker handles `submit` for the jobs shipped to it. -/
theorem request_of_submitted (h : (jobMachine ω ι J V E).Reachable c) {w : ω} {id : ι} {job : J}
    (hmem : .submitted id job ∈ (c.workers w).shared.log) :
    c.network.requests id = some (w, job) := by
  have hthread : ∀ p, (c.workers w).thread id = .running (.submit job p) →
      c.network.requests id = some (w, job) := by
    refine network_invariant (I := fun c => ∀ p, (c.workers w).thread id =
      .running (.submit job p) → c.network.requests id = some (w, job)) h (fun c hc p hp => ?_) ?_
    · obtain ⟨o, ho⟩ := (hc.2 w).2 id
      rw [ho] at hp
      cases hp
    · intro c a c' hr hc _ hs p hp
      have hgrows := (hs.grows (bookkeeping_of_reachable hr)).network
      cases hs with
      | @worker w' i answer worker halive hshipped hstep =>
        change (Function.update c.workers w' worker w).thread id = _ at hp
        by_cases hw : w = w'
        · subst hw
          rw [Function.update_self] at hp
          obtain ⟨p', hp'⟩ | hrequest := submit_of_step hshipped hstep hp
          · exact hc p' hp'
          · exact hrequest
        · rw [Function.update_of_ne hw] at hp
          exact hc p hp
      | _ => exact hgrows.request _ _ (hc p hp)
  obtain ⟨p, hp⟩ := ((jobLog_of_reachable (worker_reachable h w)).2 id).submitted job hmem
  exact hthread p hp

/-- A worker accepts the jobs shipped to it. -/
theorem request_of_accepted (h : (jobMachine ω ι J V E).Reachable c) {w : ω} {id : ι}
    (hmem : .accepted id ∈ (c.workers w).shared.log) :
    ∃ job, c.network.requests id = some (w, job) := by
  obtain ⟨job, hsubmitted⟩ := (jobLog_of_reachable (worker_reachable h w)).1.accepted id hmem
  exact ⟨job, request_of_submitted h hsubmitted⟩

/-- What a genuine callback from a worker says is what the job with its id ended in there. -/
theorem ended_of_genuine (h : (jobMachine ω ι J V E).Reachable c) {w : ω} {id : ι}
    {o : JobOutcome ι V E} (hmem : .notified id o ∈ (c.workers w).shared.log) :
    ∃ job, c.network.requests id = some (w, job) ∧
      .ended id job o ∈ (c.workers w).shared.log := by
  have hlog := (jobLog_of_reachable (worker_reachable h w)).1
  obtain ⟨job, hended⟩ := hlog.notified id o hmem
  exact ⟨job, request_of_submitted h (hlog.ended id job o hended), hended⟩

/-! ### The futures -/

/-- Where an outcome of the future of job `id` comes from. -/
inductive Source (c : NetworkConfig ω ι J V E) (id : ι) : JobOutcome ι V E → Prop where
  | ended {w job o} (hrequest : c.network.requests id = some (w, job))
      (hended : .ended id job o ∈ (c.workers w).shared.log) : Source c id o
  | submissionFailed {cause} (h : .submissionFailed id cause ∈ c.network.log) :
      Source c id (.completedExceptionally cause)
  | cancelled (h : .cancelled id ∈ c.network.log) :
      Source c id (.completedExceptionally .cancellationException)
  | released (h : .released id ∈ c.network.log) :
      Source c id (.completedExceptionally (.exception unexposedLauncherException))

omit [DecidableEq ω] [DecidableEq ι] [DecidableEq J] [DecidableEq V] [DecidableEq E] in
theorem Source.mono {id : ι} {o : JobOutcome ι V E} (h : Source c id o) (hg : c.Grows c') :
    Source c' id o := by
  cases h with
  | ended hrequest hended =>
    exact .ended (hg.network.request _ _ hrequest) (hg.workerLog _ _ hended)
  | submissionFailed h => exact .submissionFailed (hg.network.log _ h)
  | cancelled h => exact .cancelled (hg.network.log _ h)
  | released h => exact .released (hg.network.log _ h)

omit [DecidableEq ω] [DecidableEq J] [DecidableEq V] [DecidableEq E] in
theorem outcome_settle {n : WorkerNetwork ω ι J V E} {id id' : ι} {o o' : JobOutcome ι V E}
    (h : ((n.settle id' o').futures id).outcome = some o) :
    (n.futures id).outcome = some o ∨ id = id' ∧ o = o' := by
  rw [settle_futures] at h
  by_cases hid : id = id'
  · subst hid
    rw [Function.update_self, CompletableFuture.settle_outcome_eq_some] at h
    exact h.imp_right fun h => ⟨rfl, h.2.symm⟩
  · rw [Function.update_of_ne hid] at h
    exact Or.inl h

/-- **How a future gets an outcome.** -/
theorem NetworkStep.outcome (hs : NetworkStep c a c') {id : ι} {o : JobOutcome ι V E}
    (h : (c'.network.futures id).outcome = some o) :
    (c.network.futures id).outcome = some o ∨ Source c' id o ∨
      ∃ callback, OnTheWay c callback ∧ callback.id = id ∧ callback.outcome = o ∧
        id ∈ c.network.idFutureMap := by
  cases hs with
  | @launcher i answer k n' k' hanswered hk hn =>
    change (n'.futures id).outcome = some o at h
    cases hn with
    | @cancel id' p hreturned =>
      obtain h | ⟨rfl, rfl⟩ := outcome_settle h
      · exact Or.inl h
      · exact Or.inr (Or.inl (.cancelled (List.mem_append_right _ (List.mem_singleton_self _))))
    | @complete callback hid =>
      obtain h | ⟨rfl, rfl⟩ := outcome_settle h
      · exact Or.inl h
      · refine Or.inr (Or.inr ⟨callback, Or.inr ⟨i, ?_⟩, rfl, rfl, hid⟩)
        rw [hk]
        rfl
    | @release id' todo =>
      obtain h | ⟨rfl, rfl⟩ := outcome_settle h
      · exact Or.inl h
      · exact Or.inr (Or.inl (.released (List.mem_append_right _ (List.mem_singleton_self _))))
    | _ => exact Or.inl h
  | @fail id' cause hreplied =>
    obtain h | ⟨rfl, rfl⟩ := outcome_settle h
    · exact Or.inl h
    · exact Or.inr (Or.inl (.submissionFailed (List.mem_append_right _
        (List.mem_singleton_self _))))
  | _ => exact Or.inl h

/-- **Every outcome has a source.** -/
theorem source_of_outcome (h : (jobMachine ω ι J V E).Reachable c) {id : ι}
    {o : JobOutcome ι V E} (ho : (c.network.futures id).outcome = some o) : Source c id o := by
  refine network_invariant (I := fun c => ∀ o, (c.network.futures id).outcome = some o →
    Source c id o) h (fun c hc o ho => ?_) ?_ o ho
  · rw [network_of_init hc] at ho
    cases ho
  · intro c a c' hr hc _ hs o ho
    have hg := hs.grows (bookkeeping_of_reachable hr)
    obtain ho | hsource | ⟨callback, hway, rfl, rfl, hid⟩ := hs.outcome ho
    · exact (hc o ho).mono hg
    · exact hsource
    · -- the future is registered, so its id is not nobody's
      have hgenuine := genuine_of_onTheWay hr hway
      unfold Genuine at hgenuine
      split at hgenuine
      · obtain ⟨job, hrequest, hended⟩ := ended_of_genuine hr hgenuine
        exact (Source.ended hrequest hended).mono hg
      · obtain ⟨w, job, p, hthread⟩ := (bookkeeping_of_reachable hr callback.id).submitted hid
        exact absurd (operation_of_thread hthread) (hgenuine w job)

/-! ### Agreement -/

/-- **The result of a job.** A future keeps the outcome it has got. If it is a value, then the job
submitted under its id has returned that value; if it is an exception, then it is that job's own,
the failure of its submission, its cancellation or the shutdown of the network. A callback with an
id that is not in `id_future_map` changes nothing. -/
theorem job_results {c' : NetworkConfig ω ι J V E} (h : (jobMachine ω ι J V E).Reachable c)
    (hrun : (jobMachine ω ι J V E).Run c c') :
    (∀ id o, (c.network.futures id).outcome = some o →
      (c'.network.futures id).outcome = some o) ∧
    (∀ id v, (c.network.futures id).outcome = some (.completed v) → ∃ w job,
      c.operation id = .submit w job ∧ .ended id job (.completed v) ∈ (c.workers w).shared.log) ∧
    (∀ id cause, (c.network.futures id).outcome = some (.completedExceptionally cause) →
      (∃ w job, c.operation id = .submit w job ∧
        .ended id job (.completedExceptionally cause) ∈ (c.workers w).shared.log) ∨
      .submissionFailed id cause ∈ c.network.log ∨
      (cause = .cancellationException ∧ .cancelled id ∈ c.network.log) ∨
      (cause = .exception unexposedLauncherException ∧ .released id ∈ c.network.log)) ∧
    ∀ j callback answer d, c.launcher.thread j = .running (.notify (.received callback)) →
      callback.id ∉ c.network.idFutureMap →
      (jobMachine ω ι J V E).step c (.launcher j answer) = some d →
      d.network = c.network ∧ d.workers = c.workers ∧
        d.launcher.thread j = .running (.notify .finished) := by
  refine ⟨(grows_of_run h hrun).network.outcome, fun id v hv => ?_, fun id cause hcause => ?_, ?_⟩
  · cases source_of_outcome h hv with
    | ended hrequest hended =>
      exact ⟨_, _, (bookkeeping_of_reachable h).operation hrequest, hended⟩
  · cases source_of_outcome h hcause with
    | ended hrequest hended =>
      exact Or.inl ⟨_, _, (bookkeeping_of_reachable h).operation hrequest, hended⟩
    | submissionFailed hlog => exact Or.inr (Or.inl hlog)
    | cancelled hlog => exact Or.inr (Or.inr (Or.inl ⟨rfl, hlog⟩))
    | released hlog => exact Or.inr (Or.inr (Or.inr ⟨rfl, hlog⟩))
  · intro j callback answer d hj hid hstep
    cases networkStep_of_step hstep with
    | start ho =>
      rw [hj] at ho
      cases ho
    | launcher hanswered hk hn =>
      rw [hj] at hk
      obtain rfl := Thread.running.inj hk
      cases hn with
      | know hmem => exact absurd hmem hid
      | ignore => exact ⟨rfl, rfl, Function.update_self _ _ _⟩

end Step

/-! ### A result and a cancellation -/

section Example

/-- Call `0` submits a job, call `1` handles a callback, call `2` cancels the future. On the worker,
call `0` is the handler of the submission and call `1` a pool thread. -/
def submitNotifyCancel : NetworkConfig Unit Nat Unit Unit Unit where
  launcher.shared := .new
  launcher.thread i := .ready (if i = 0 then .submit () () else if i = 1 then .notify
    else .cancel 0)
  workers _ := ⟨.new, fun i => .ready (if i = 0 then .submit () else .run)⟩

/-- The job is submitted, runs and returns, the callback is duplicated, and one of the two is
handled. -/
def resultSchedule : List (NetworkAction Unit Nat Unit Unit) :=
  List.replicate 4 (.launcher 0 .go) ++ List.replicate 3 (.worker () 0 .go) ++
    [.worker () 1 .go, .worker () 1 (.take 0), .worker () 1 .go,
      .worker () 1 (.ends (.completed ())), .worker () 1 .go, .worker () 1 .go,
      .duplicate ⟨some (), 0, .completed ()⟩, .launcher 1 .go,
      .launcher 1 (.receive ⟨some (), 0, .completed ()⟩), .launcher 1 .go, .launcher 1 .go]

theorem submitNotifyCancel_init :
    (jobMachine Unit Nat Unit Unit Unit).init submitNotifyCancel :=
  ⟨⟨rfl, fun _ => ⟨_, rfl⟩⟩, fun _ => ⟨rfl, fun _ => ⟨_, rfl⟩⟩⟩

/-- The job's value is its result, and the cancellation comes too late. -/
theorem job_results_resultSchedule :
    ∃ c c' : NetworkConfig Unit Nat Unit Unit Unit,
      (c.network.futures 0).outcome = some (.completed ()) ∧
      (∃ w job, c.operation 0 = .submit w job ∧
        .ended 0 job (.completed ()) ∈ (c.workers w).shared.log) ∧
      .cancelled 0 ∈ c'.network.log ∧ (c'.network.futures 0).outcome = some (.completed ()) := by
  obtain ⟨c, c', hrun, hrun', hc⟩ :=
    (jobMachine Unit Nat Unit Unit Unit).exists_run_run_of_exec submitNotifyCancel
      resultSchedule (List.replicate 2 (.launcher 2 .go))
      (fun c c' => (c.network.futures 0).outcome = some (.completed ()) ∧
        .cancelled 0 ∈ c'.network.log) (by decide)
  obtain ⟨houtcome, hcancelled⟩ := of_decide_eq_true hc
  have hreach : (jobMachine Unit Nat Unit Unit Unit).Reachable c :=
    ⟨_, submitNotifyCancel_init, hrun⟩
  obtain ⟨hstable, hvalue, -, -⟩ := job_results hreach hrun'
  exact ⟨c, c', houtcome, hvalue 0 () houtcome, hcancelled, hstable 0 _ houtcome⟩

end Example

end Shabdiz
