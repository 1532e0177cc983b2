import Shabdiz.Job.DefaultWorkerRemote

/-!
# Answers to cancel requests

The handler of a cancel request asks `submitted_jobs` twice: whether it contains the id, and then
for the future. When the job ends in between, or another request cancels it, the second answer is
`null`; the handler ends with a `NullPointerException` that nobody sees, and the future that the
requester waits on, without a timeout, is never completed.

## Main definitions

* `IsAnswer` — what a cancel request may be answered
* `LosesJob` — the step that finds `null`

## Main results

* `requested_of_reachable` — a request is answered exactly by a handler that ends normally
* `isAnswer_of_finished` — every handler does, if none loses its job
* `exists_unanswered` — a request that is never answered
-/

namespace Shabdiz

open DefaultWorkerRemote

variable {ι J V E : Type}

/-- What a cancel request for job `id` may be answered: whether the job is cancelled, or that it
is not known. -/
inductive IsAnswer (id : ι) : JobOutcome ι Bool E → Prop where
  | cancelled (b : Bool) : IsAnswer id (.completed b)
  | unknown : IsAnswer id (.completedExceptionally (.exception (.unknownJobException id)))

/-- Whether a handler has finished running. -/
def DefaultWorkerRemote.CancelPoint.finished : CancelPoint → Bool
  | answered => true
  | thrown => true
  | _ => false

/-- How a call stands with the `future_cancellation` of its request. Only the handler of a cancel
request ever completes it. -/
def Requested (request : ι) (w : DefaultWorkerRemote ι J V E) :
    Thread (WorkerOperation ι J) (WorkerCall ι J V E) → Prop
  | .running (.cancel id _ .answered) =>
    ∃ o, (w.cancellations request).outcome = some o ∧ IsAnswer id o
  | _ => (w.cancellations request).outcome = none

theorem Requested.congr {request : ι} {w w' : DefaultWorkerRemote ι J V E}
    {t : Thread (WorkerOperation ι J) (WorkerCall ι J V E)} (h : Requested request w t)
    (hw : w'.cancellations request = w.cancellations request) : Requested request w' t := by
  revert h
  simp only [Requested, hw]
  exact id

variable [DecidableEq ι] [DecidableEq J]

/-- Only its own handler completes the answer to a request. -/
theorem WorkerStep.cancellations_of_ne {i j : ι} {answer : WorkerRemoteAnswer ι V E}
    {w w' : DefaultWorkerRemote ι J V E} {k k' : WorkerCall ι J V E}
    (h : WorkerStep i answer w k w' k') (hj : j ≠ i) : w'.cancellations j = w.cancellations j := by
  cases h with
  | answer | refuse => exact Function.update_of_ne hj _ _
  | _ => rfl

variable {P : WorkerConfig ι J V E → ι × WorkerRemoteAnswer ι V E → Prop}
  {c : WorkerConfig ι J V E}

theorem requested_of_reachable (h : (workerMachine ι J V E).ReachableOf P c) (request : ι) :
    Requested request c.shared (c.thread request) := by
  refine (worker_invariant (G := fun _ => True) (A := Requested) h ⟨trivial, fun _ _ => rfl⟩
    ?_ ?_ ?_).2 request
  · intro c i o _ hA ho
    have hi := hA i
    rw [ho] at hi
    cases o <;> exact hi
  · intro c i e k w' k' _ _ hA _ hk hstep
    have hi := hA i
    rw [hk] at hi
    refine ⟨trivial, ?_⟩
    cases hstep with
    | @answer id b cancelled =>
      refine ⟨.completed cancelled, ?_, .cancelled cancelled⟩
      rw [answer_cancellations, Function.update_self, CompletableFuture.settle_outcome_eq_some]
      exact Or.inr ⟨hi, rfl⟩
    | @refuse id b =>
      refine ⟨_, ?_, .unknown⟩
      rw [answer_cancellations, Function.update_self, CompletableFuture.settle_outcome_eq_some]
      exact Or.inr ⟨hi, rfl⟩
    | _ => exact hi
  · intro c i e k w' k' j _ _ hA _ _ hstep hj
    exact (hA j).congr (hstep.cancellations_of_ne hj)

/-- The next step of a handler asks for the future of a job whose id has been removed since the
handler found it. -/
def LosesJob (c : WorkerConfig ι J V E) (request : ι) : Prop :=
  ∃ id b, c.thread request = .running (.cancel id b .found) ∧ c.shared.submittedJobs id = false

/-- Without a lost job no handler ends with an exception. -/
theorem not_thrown_of_reachable
    (h : (workerMachine ι J V E).ReachableOf (fun c a => ¬ LosesJob c a.1) c) (request id : ι)
    (b : Bool) : c.thread request ≠ .running (.cancel id b .thrown) := by
  refine (worker_invariant (G := fun _ => True)
    (A := fun _ _ t => ∀ id b, t ≠ .running (.cancel id b .thrown)) h ⟨trivial, by simp⟩
    ?_ ?_ ?_).2 request id b
  · rintro c i o - - - id b
    cases o <;> simp [WorkerOperation.start]
  · intro c i e k w' k' _ _ _ hP hk hstep
    refine ⟨trivial, fun id b => ?_⟩
    cases hstep with
    | @throw id b hnone => exact absurd ⟨id, b, hk, hnone⟩ hP
    | _ => simp
  · intro c i e k w' k' j _ _ hA _ _ _ _
    exact hA j

/-- **Every cancel request is answered**, in a run in which no handler loses its job between its
two look-ups: when the handler has finished, the answer is there. -/
theorem isAnswer_of_finished
    (h : (workerMachine ι J V E).ReachableOf (fun c a => ¬ LosesJob c a.1) c) {request id : ι}
    {b : Bool} {p : CancelPoint} (hrequest : c.thread request = .running (.cancel id b p))
    (hp : p.finished = true) :
    ∃ o, (c.shared.cancellations request).outcome = some o ∧ IsAnswer id o := by
  have hreq := requested_of_reachable h request
  rw [hrequest] at hreq
  cases p with
  | answered => exact hreq
  | thrown => exact absurd hrequest (not_thrown_of_reachable h request id b)
  | _ => cases hp

/-! ### A request without an answer -/

section Example

/-- Call `0` submits a job, call `1` is a pool thread, call `2` cancels job `0`. -/
def submitRunCancel : WorkerConfig Nat Unit Unit Unit where
  shared := .new
  thread i := .ready (if i = 0 then .submit () else if i = 1 then .run else .cancel 0 false)

/-- The job is called and returns. -/
def calledSchedule : List (Nat × WorkerRemoteAnswer Nat Unit Unit) :=
  [(0, .go), (0, .go), (0, .go), (1, .go), (1, .take 0), (1, .go), (1, .ends (.completed ()))]

/-- The request finds the id, the job removes it, and the request asks for the future. -/
def lostSchedule : List (Nat × WorkerRemoteAnswer Nat Unit Unit) :=
  calledSchedule ++ [(2, .go), (2, .go), (1, .go), (1, .go), (1, .go), (2, .go)]

/-- The job removes its id after the request has got the future. -/
def foundSchedule : List (Nat × WorkerRemoteAnswer Nat Unit Unit) :=
  calledSchedule ++
    [(2, .go), (2, .go), (2, .go), (1, .go), (1, .go), (1, .go), (2, .go), (2, .go), (2, .go)]

theorem submitRunCancel_init : (workerMachine Nat Unit Unit Unit).init submitRunCancel :=
  ⟨rfl, fun _ => ⟨_, rfl⟩⟩

/-- A handler can finish without an answer. -/
theorem exists_unanswered :
    ∃ c, (workerMachine Nat Unit Unit Unit).Reachable c ∧
      (∃ p, c.thread 2 = .running (.cancel 0 false p) ∧ p.finished = true) ∧
      (c.shared.cancellations 2).outcome = none := by
  obtain ⟨c, hr, hc⟩ := (workerMachine Nat Unit Unit Unit).exists_run_of_exec submitRunCancel
    lostSchedule
    (fun c => c.thread 2 = .running (.cancel 0 false .thrown) ∧
      (c.shared.cancellations 2).outcome = none) (by decide)
  obtain ⟨hthread, hnone⟩ := of_decide_eq_true hc
  exact ⟨c, ⟨_, submitRunCancel_init, hr⟩, ⟨_, hthread, rfl⟩, hnone⟩

/-- A handler that has found its job still finds it. -/
def keepsJob (c : WorkerConfig Nat Unit Unit Unit) (i : Nat) : Bool :=
  match c.thread i with
  | .running (.cancel id _ .found) => c.shared.submittedJobs id
  | _ => true

theorem not_losesJob_of_keepsJob {c : WorkerConfig Nat Unit Unit Unit} {i : Nat}
    (h : keepsJob c i = true) : ¬ LosesJob c i := by
  rintro ⟨id, b, hthread, hnone⟩
  rw [keepsJob, hthread] at h
  exact Bool.false_ne_true (hnone.symm.trans h)

/-- In `foundSchedule` the handler does not lose its job, and answers. -/
theorem isAnswer_foundSchedule :
    ∃ c : WorkerConfig Nat Unit Unit Unit,
      c.thread 2 = .running (.cancel 0 false .answered) ∧
        ∃ o, (c.shared.cancellations 2).outcome = some o ∧ IsAnswer 0 o := by
  obtain ⟨c, hr, hc⟩ := (workerMachine Nat Unit Unit Unit).exists_runOf_of_execOf
    (fun c a => keepsJob c a.1 = true) submitRunCancel foundSchedule
    (fun c => c.thread 2 = .running (.cancel 0 false .answered)) (by decide)
  have hreach : (workerMachine Nat Unit Unit Unit).ReachableOf
      (fun c a => ¬ LosesJob c a.1) c :=
    ⟨_, submitRunCancel_init, hr.mono fun _ _ => not_losesJob_of_keepsJob⟩
  have hthread := of_decide_eq_true hc
  exact ⟨c, hthread, isAnswer_of_finished hreach hthread rfl⟩

end Example

end Shabdiz
