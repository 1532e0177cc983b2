import Shabdiz.Concurrency.History
import Shabdiz.Job.DefaultWorkerRemote

/-!
# Jobs cancelled before they start

"If successful, and this task has not started when cancel is called, this task will never run."
A cancel request cancels the future in `submitted_jobs`. The task of the job is another object,
which the executor keeps: it stays in the queue, and when a thread takes it, the job is called and
the launcher is notified.

## Main definitions

* `AnsweredInTime` — a cancel request was answered `true` before a thread took the job's task
* `CancelsUnstarted` — the step that cancels a job whose task is still going to run

## Main results

* `not_called_of_answeredInTime` — without such a step, a job cancelled in time never runs
* `exists_called_of_answeredInTime` — with one, it may run
* `exists_called_of_mem_queue` — and it will, as soon as a thread takes its task
-/

namespace Shabdiz

open DefaultWorkerRemote

variable {ι J V E : Type}

/-- A request to cancel job `id` was answered `true` when no thread had taken the job's task. -/
def AnsweredInTime (id : ι) (log : List (WorkerEvent ι J V E)) : Prop :=
  ∃ before request after, log = before ++ .answered request id (.completed true) :: after ∧
    .began id ∉ before

/-- The task of job `id` is not going to be taken: `submit` has handed it over or has failed, and
it is not in the queue. -/
structure Dead (id : ι) (w : DefaultWorkerRemote ι J V E) : Prop where
  handed : .accepted id ∈ w.log ∨ .rejected id ∈ w.log
  queue : ∀ job, (id, job) ∉ w.queue

/-- The next step of call `k` cancels a job whose task is queued, or is still to be handed to the
executor. -/
def CancelsUnstarted (c : WorkerConfig ι J V E) (k : ι) : Prop :=
  ∃ id b, c.thread k = .running (.cancel id b .got) ∧ ¬ Dead id c.shared

theorem answeredInTime_concat {id : ι} {log : List (WorkerEvent ι J V E)}
    {e : WorkerEvent ι J V E} (h : AnsweredInTime id (log ++ [e])) :
    AnsweredInTime id log ∨
      ((∃ request, e = .answered request id (.completed true)) ∧ .began id ∉ log) := by
  obtain ⟨before, request, after, heq, hbegan⟩ := h
  obtain ⟨-, rfl, he⟩ | ⟨after', -, hlog⟩ := concat_eq_append_cons heq
  · exact Or.inr ⟨⟨request, he.symm⟩, hbegan⟩
  · exact Or.inl ⟨before, request, after', hlog, hbegan⟩

/-! ### The invariant -/

/-- The part of the invariant about the worker. -/
structure CancelInvariant (w : DefaultWorkerRemote ι J V E) : Prop where
  called : ∀ id job, .called id job ∈ w.log → .began id ∈ w.log
  notified : ∀ id o, .notified id o ∈ w.log → .began id ∈ w.log
  cancelled : ∀ id, (w.futureResults id).isCancelled = true → .began id ∈ w.log ∨ Dead id w
  answered : ∀ id, AnsweredInTime id w.log → Dead id w ∧ .began id ∉ w.log

/-- The part of the invariant about call `i`. -/
def CancelLocal (i : ι) (w : DefaultWorkerRemote ι J V E) :
    Thread (WorkerOperation ι J) (WorkerCall ι J V E) → Prop
  | .ready _ => .accepted i ∉ w.log ∧ .rejected i ∉ w.log
  | .running (.submit _ .entry) => .accepted i ∉ w.log ∧ .rejected i ∉ w.log
  | .running (.submit _ .registered) => .accepted i ∉ w.log ∧ .rejected i ∉ w.log
  | .running (.run (.begun id _)) => .began id ∈ w.log
  | .running (.run (.calling id _)) => .began id ∈ w.log
  | .running (.run (.ended id _)) => .began id ∈ w.log
  | .running (.run (.completed id _)) => .began id ∈ w.log
  | .running (.cancel id _ (.decided true)) => (w.futureResults id).isCancelled = true
  | .running (.cancel id _ (.answering true)) => (w.futureResults id).isCancelled = true
  | _ => True

variable [DecidableEq ι] [DecidableEq J]

section Step

variable {i j : ι} {answer : WorkerRemoteAnswer ι V E} {w w' : DefaultWorkerRemote ι J V E}
  {k k' : WorkerCall ι J V E}

omit [DecidableEq ι] [DecidableEq J] in
theorem CancelInvariant.record (h : CancelInvariant w) {e : WorkerEvent ι J V E}
    (hlog : w'.log = w.log ++ [e]) (hfuture : w'.futureResults = w.futureResults)
    (hdead : ∀ id, Dead id w → Dead id w')
    (hcalled : ∀ id job, e = .called id job → .began id ∈ w.log)
    (hnotified : ∀ id o, e = .notified id o → .began id ∈ w.log)
    (hanswered : ∀ request id, e = .answered request id (.completed true) →
      (w.futureResults id).isCancelled = true)
    (hbegan : ∀ id, e = .began id → ¬ Dead id w) : CancelInvariant w' := by
  refine ⟨fun id job hmem => ?_, fun id o hmem => ?_, fun id hc => ?_, fun id hans => ?_⟩
  · rw [hlog] at hmem ⊢
    refine List.mem_append_left _ ?_
    obtain hmem | hmem := List.mem_append.mp hmem
    · exact h.called id job hmem
    · exact hcalled id job (List.mem_singleton.mp hmem).symm
  · rw [hlog] at hmem ⊢
    refine List.mem_append_left _ ?_
    obtain hmem | hmem := List.mem_append.mp hmem
    · exact h.notified id o hmem
    · exact hnotified id o (List.mem_singleton.mp hmem).symm
  · rw [hfuture] at hc
    rw [hlog]
    obtain hb | hd := h.cancelled id hc
    · exact Or.inl (List.mem_append_left _ hb)
    · exact Or.inr (hdead id hd)
  · rw [hlog] at hans ⊢
    have hd : Dead id w ∧ .began id ∉ w.log := by
      obtain hans | ⟨⟨request, he⟩, hb⟩ := answeredInTime_concat hans
      · exact h.answered id hans
      · exact ⟨(h.cancelled id (hanswered request id he)).resolve_left hb, hb⟩
    refine ⟨hdead id hd.1, fun hmem => ?_⟩
    obtain hmem | hmem := List.mem_append.mp hmem
    · exact hd.2 hmem
    · exact hbegan id (List.mem_singleton.mp hmem).symm hd.1

omit [DecidableEq ι] [DecidableEq J] in
theorem Dead.mono {id : ι} (h : Dead id w) (hlog : ∀ e ∈ w.log, e ∈ w'.log)
    (hqueue : ∀ job, (id, job) ∈ w'.queue → (id, job) ∈ w.queue) : Dead id w' :=
  ⟨h.handed.imp (hlog _) (hlog _), fun job hmem => h.queue job (hqueue job hmem)⟩

omit [DecidableEq J] in
/-- A future that is cancelled stays so. -/
theorem isCancelled_settleResult {id id' : ι} {o : JobOutcome ι V E}
    (h : (w.futureResults id').isCancelled = true) :
    ((w.settleResult id o).futureResults id').isCancelled = true := by
  rw [CompletableFuture.isCancelled_iff] at h ⊢
  rw [settleResult_futureResults]
  by_cases hid : id' = id
  · subst hid
    rw [Function.update_self]
    exact CompletableFuture.settle_outcome_of_eq h
  · rwa [Function.update_of_ne hid]

omit [DecidableEq J] in
/-- Completing a future keeps the invariant, if the job's task is taken or dead. -/
theorem CancelInvariant.settleResult (h : CancelInvariant w) {id : ι} (o : JobOutcome ι V E)
    (hid : .began id ∈ w.log ∨ Dead id w) : CancelInvariant (w.settleResult id o) := by
  have hdead : ∀ id', Dead id' w → Dead id' (w.settleResult id o) := fun id' hd =>
    hd.mono (fun _ he => he) fun _ hq => hq
  refine ⟨h.called, h.notified, fun id' hc => ?_, fun id' hans => ?_⟩
  · by_cases heq : id' = id
    · subst heq
      exact hid.imp (fun hb => hb) (hdead id')
    · rw [settleResult_futureResults, Function.update_of_ne heq] at hc
      exact (h.cancelled id' hc).imp (fun hb => hb) (hdead id')
  · exact ⟨hdead id' (h.answered id' hans).1, (h.answered id' hans).2⟩

/-- **The step lemma**, for the worker. -/
theorem CancelInvariant.step (h : CancelInvariant w) (hk : CancelLocal i w (.running k))
    (hunstarted : ∀ id b, k = .cancel id b .got → Dead id w)
    (hstep : WorkerStep i answer w k w' k') : CancelInvariant w' := by
  have hgrow : ∀ (e : WorkerEvent ι J V E), ∀ x ∈ w.log, x ∈ w.log ++ [e] :=
    fun e x hx => List.mem_append_left _ hx
  cases hstep with
  | put =>
    exact h.record rfl rfl (fun id hd => hd.mono (hgrow _) fun _ hq => hq) (by simp) (by simp)
      (by simp) (by simp)
  | reject =>
    exact h.record rfl rfl (fun id hd => hd.mono (hgrow _) fun _ hq => hq) (by simp) (by simp)
      (by simp) (by simp)
  | @enqueue job hs =>
    refine h.record rfl rfl (fun id hd => ?_) (by simp) (by simp) (by simp) (by simp)
    refine hd.mono (hgrow _) fun job' hq => ?_
    have hne : id ≠ i := by
      rintro rfl
      exact hd.handed.elim hk.1 hk.2
    simpa [hne] using hq
  | @take id job hq =>
    refine h.record rfl rfl (fun id' hd => ?_) (by simp) (by simp) (by simp) ?_
    · exact hd.mono (hgrow _) fun _ hmem => List.mem_of_mem_erase hmem
    · intro id' heq hd
      obtain rfl : id = id' := by simpa using heq
      exact hd.queue job hq
  | @call id job =>
    refine h.record rfl rfl (fun id hd => hd.mono (hgrow _) fun _ hq => hq) ?_ (by simp)
      (by simp) (by simp)
    intro id' job' heq
    obtain ⟨rfl, -⟩ := by simpa using heq
    exact hk
  | ends =>
    exact h.record rfl rfl (fun id hd => hd.mono (hgrow _) fun _ hq => hq) (by simp) (by simp)
      (by simp) (by simp)
  | complete => exact h.settleResult _ (Or.inl hk)
  | @notify id o =>
    refine h.record rfl rfl (fun id hd => hd.mono (hgrow _) fun _ hq => hq) (by simp) ?_
      (by simp) (by simp)
    intro id' o' heq
    obtain ⟨rfl, -⟩ := by simpa using heq
    exact hk
  | cancel => exact h.settleResult _ (Or.inr (hunstarted _ _ rfl))
  | @answer id b cancelled =>
    refine h.record rfl rfl (fun id hd => hd.mono (hgrow _) fun _ hq => hq) (by simp) (by simp)
      ?_ (by simp)
    intro request id' heq
    obtain ⟨-, rfl, rfl⟩ := by simpa using heq
    exact hk
  | refuse =>
    exact h.record rfl rfl (fun id hd => hd.mono (hgrow _) fun _ hq => hq) (by simp) (by simp)
      (by simp) (by simp)
  | drain =>
    have hdead : ∀ id, Dead id w → Dead id w.shutdownNow := fun id hd =>
      hd.mono (fun _ he => he) (by simp)
    exact ⟨h.called, h.notified, fun id hc => (h.cancelled id hc).imp (fun hb => hb) (hdead id),
      fun id hans => ⟨hdead id (h.answered id hans).1, (h.answered id hans).2⟩⟩
  | remove | forget =>
    exact ⟨h.called, h.notified,
      fun id hc => (h.cancelled id hc).imp (fun hb => hb) fun hd => ⟨hd.handed, hd.queue⟩,
      fun id hans => ⟨⟨(h.answered id hans).1.handed, (h.answered id hans).1.queue⟩,
        (h.answered id hans).2⟩⟩
  | find | miss | get | throw | keep | unexpose => exact h

/-- The step lemma, for the acting call. -/
theorem CancelLocal.step (hk : CancelLocal i w (.running k))
    (hstep : WorkerStep i answer w k w' k') : CancelLocal i w' (.running k') := by
  cases hstep with
  | put => simpa [CancelLocal] using hk
  | take => exact List.mem_append_right _ (List.mem_singleton_self _)
  | call | ends => exact List.mem_append_left _ hk
  | complete => exact hk
  | @cancel id b =>
    cases hc : ((w.futureResults id).settle
      (.completedExceptionally .cancellationException)).isCancelled with
    | true => simpa [CancelLocal] using hc
    | false => trivial
  | forget => exact hk
  | _ => trivial

/-- The step lemma, for the other calls. -/
theorem CancelLocal.other {t : Thread (WorkerOperation ι J) (WorkerCall ι J V E)}
    (h : CancelLocal j w t) (hj : j ≠ i) (hstep : WorkerStep i answer w k w' k') :
    CancelLocal j w' t := by
  have hbegan : ∀ id, .began id ∈ w.log → .began id ∈ w'.log := fun _ => hstep.log_mono
  have hhanded : .accepted j ∉ w.log ∧ .rejected j ∉ w.log →
      .accepted j ∉ w'.log ∧ .rejected j ∉ w'.log := by
    intro hnone
    cases hstep <;> simpa [hj] using hnone
  have hcancelled : ∀ id, (w.futureResults id).isCancelled = true →
      (w'.futureResults id).isCancelled = true := by
    intro id hc
    cases hstep with
    | complete | cancel => exact isCancelled_settleResult hc
    | _ => exact hc
  rcases t with o | ⟨job, p⟩ | p | ⟨id, b, p⟩ | p
  · exact hhanded h
  · cases p with
    | entry | registered => exact hhanded h
    | _ => trivial
  · cases p with
    | begun id job | calling id job | ended id o | completed id o => exact hbegan id h
    | _ => trivial
  · rcases p with _ | _ | _ | (_ | _) | (_ | _) | _ | _ | _ <;>
      first | exact hcancelled id h | trivial
  · trivial

end Step

/-! ### Over runs -/

variable {c : WorkerConfig ι J V E}

theorem cancelInvariant_of_reachable
    (h : (workerMachine ι J V E).ReachableOf (fun c a => ¬ CancelsUnstarted c a.1) c) :
    CancelInvariant c.shared := by
  refine (worker_invariant (A := CancelLocal) h ?_ ?_ ?_ ?_).1
  · refine ⟨⟨by simp, by simp, fun id hc => ?_, fun id hans => ?_⟩, fun i o => ?_⟩
    · cases hc
    · obtain ⟨before, request, after, heq, -⟩ := hans
      simp at heq
    · simp [CancelLocal]
  · intro c i o _ hA ho
    have hi := hA i
    rw [ho] at hi
    cases o with
    | submit job => exact hi
    | _ => trivial
  · intro c i e k w' k' _ hG hA hP hk hstep
    have hi := hA i
    rw [hk] at hi
    refine ⟨hG.step hi (fun id b hgot => ?_) hstep, hi.step hstep⟩
    by_contra hdead
    exact hP ⟨id, b, hgot ▸ hk, hdead⟩
  · intro c i e k w' k' j _ _ hA _ _ hstep hj
    exact (hA j).other hj hstep

/-- **A job cancelled before it starts never runs**, in a run in which no request cancels a job
whose task is still going to be taken: its `call()` is not invoked and the launcher is not
notified. -/
theorem not_called_of_answeredInTime
    (h : (workerMachine ι J V E).ReachableOf (fun c a => ¬ CancelsUnstarted c a.1) c) {id : ι}
    (hans : AnsweredInTime id c.shared.log) :
    (∀ job, .called id job ∉ c.shared.log) ∧ ∀ o, .notified id o ∉ c.shared.log := by
  have hinv := cancelInvariant_of_reachable h
  obtain ⟨-, hbegan⟩ := hinv.answered id hans
  exact ⟨fun job hmem => hbegan (hinv.called id job hmem),
    fun o hmem => hbegan (hinv.notified id o hmem)⟩

/-- Whether its job is cancelled or not, a task in the queue is called as soon as an idle thread
takes it. -/
theorem exists_called_of_mem_queue {id r : ι} {job : J} (hq : (id, job) ∈ c.shared.queue)
    (hr : c.thread r = .running (.run .idle)) :
    ∃ c' job', (workerMachine ι J V E).Run c c' ∧ .called id job' ∈ c'.shared.log := by
  obtain ⟨⟨id', job'⟩, htask⟩ :
      ∃ task, (c.shared.queue.find? fun task => task.1 = id) = some task :=
    Option.isSome_iff_exists.mp (List.find?_isSome.mpr ⟨(id, job), hq, by simp⟩)
  obtain rfl : id' = id := by simpa using List.find?_some htask
  let w := c.shared.dequeue (id', job')
  let c₁ : WorkerConfig ι J V E :=
    ⟨w, Function.update c.thread r (.running (.run (.begun id' job')))⟩
  let c₂ : WorkerConfig ι J V E :=
    ⟨w.record (.called id' job'), Function.update c₁.thread r (.running (.run (.calling id' job')))⟩
  have h₁ : (workerMachine ι J V E).step c (r, .take id') = some c₁ :=
    Interleaving.step_running hr (by simp [WorkerCall.next, run, htask, w])
  have h₂ : (workerMachine ι J V E).step c₁ (r, .go) = some c₂ :=
    Interleaving.step_running (Function.update_self _ _ _) (by simp [WorkerCall.next, run, c₁])
  refine ⟨c₂, job', (Machine.RunOf.refl.tail trivial h₁).tail trivial h₂, ?_⟩
  exact List.mem_append_right _ (List.mem_singleton_self _)

/-! ### A cancelled job that runs -/

section Example

/-- Call `0` submits a job, call `1` cancels it, call `2` is a pool thread, call `3` shuts the
worker down. -/
def submitCancelRun : WorkerConfig (Fin 4) Unit Unit Unit where
  shared := .new
  thread i := .ready (if i = 0 then .submit () else if i = 1 then .cancel 0 false
    else if i = 2 then .run else .shutdown)

/-- Call `0` to its end. -/
def submitSchedule : List (Fin 4 × WorkerRemoteAnswer (Fin 4) Unit Unit) :=
  [(0, .go), (0, .go), (0, .go)]

/-- Call `1` to its end: the job is cancelled. -/
def cancelSchedule : List (Fin 4 × WorkerRemoteAnswer (Fin 4) Unit Unit) :=
  [(1, .go), (1, .go), (1, .go), (1, .go), (1, .go), (1, .go)]

/-- Call `2` to its end: the pool thread takes the job and calls it nevertheless. -/
def runSchedule : List (Fin 4 × WorkerRemoteAnswer (Fin 4) Unit Unit) :=
  [(2, .go), (2, .take 0), (2, .go), (2, .ends (.completed ())), (2, .go), (2, .go)]

/-- Call `3` to its end. -/
def drainSchedule : List (Fin 4 × WorkerRemoteAnswer (Fin 4) Unit Unit) :=
  [(3, .go), (3, .go), (3, .go)]

theorem submitCancelRun_init : (workerMachine (Fin 4) Unit Unit Unit).init submitCancelRun :=
  ⟨rfl, fun _ => ⟨_, rfl⟩⟩

/-- The answer of request `1`, and what has happened before it. -/
def submittedThenAnswered : List (WorkerEvent (Fin 4) Unit Unit Unit) :=
  [.submitted 0 (), .accepted 0, .answered 1 0 (.completed true)]

/-- A job is cancelled before it starts, and then runs. -/
theorem exists_called_of_answeredInTime :
    ∃ c, (workerMachine (Fin 4) Unit Unit Unit).Reachable c ∧ AnsweredInTime 0 c.shared.log ∧
      .called 0 () ∈ c.shared.log ∧ .notified 0 (.completed ()) ∈ c.shared.log := by
  obtain ⟨c, hr, hc⟩ := (workerMachine (Fin 4) Unit Unit Unit).exists_run_of_exec submitCancelRun
    (submitSchedule ++ cancelSchedule ++ runSchedule)
    (fun c => c.shared.log = submittedThenAnswered ++ [.began 0, .called 0 (),
      .ended 0 () (.completed ()), .notified 0 (.completed ())]) (by decide)
  have hlog := of_decide_eq_true hc
  refine ⟨c, ⟨_, submitCancelRun_init, hr⟩, ?_, by simp [hlog], by simp [hlog]⟩
  exact ⟨[.submitted 0 (), .accepted 0], 1, _, hlog, by simp⟩

/-- The queue is discarded, the job is cancelled, and it never runs. -/
theorem not_called_after_shutdown :
    ∃ c : WorkerConfig (Fin 4) Unit Unit Unit, AnsweredInTime 0 c.shared.log ∧
      (∀ job, .called 0 job ∉ c.shared.log) ∧ ∀ o, .notified 0 o ∉ c.shared.log := by
  obtain ⟨c, hr, hc⟩ := (workerMachine (Fin 4) Unit Unit Unit).exists_runOf_of_execOf
    (fun c a => ∀ id b, c.thread a.1 = .running (.cancel id b .got) →
      .accepted id ∈ c.shared.log ∧ c.shared.queue = [])
    submitCancelRun (submitSchedule ++ drainSchedule ++ cancelSchedule)
    (fun c => c.shared.log = submittedThenAnswered) (by decide)
  have hreach : (workerMachine (Fin 4) Unit Unit Unit).ReachableOf
      (fun c a => ¬ CancelsUnstarted c a.1) c := by
    refine ⟨_, submitCancelRun_init, hr.mono ?_⟩
    rintro d a hcancel ⟨id, b, hthread, hdead⟩
    obtain ⟨haccepted, hqueue⟩ := hcancel id b hthread
    exact hdead ⟨Or.inl haccepted, by simp [hqueue]⟩
  have hans : AnsweredInTime 0 c.shared.log := by
    rw [of_decide_eq_true hc]
    exact ⟨[.submitted 0 (), .accepted 0], 1, [], rfl, by simp⟩
  exact ⟨c, hans, not_called_of_answeredInTime hreach hans⟩

end Example

end Shabdiz
