import Shabdiz.Job.JobResults
import Shabdiz.Job.SubmittedJobs

/-!
# What `FutureRemote.cancel` answers

`FutureRemote.cancel` cancels the future and then asks the worker to cancel the job; its answer is
`true` if both have. But the future stays cancelled whatever the worker says, and a worker says
`true` once at most: it knows nothing of a job that it has cancelled. So a caller can be told
`false` of a future that is cancelled, by a worker that has finished the job, by one that cannot be
reached, and by any worker that is asked for the second time.

## Main definitions

* `CancelAgrees` — the answers agree with the outcome
* `RefusedOnRemote` — a worker does not answer `true`

## Main results

* `cancelAgrees_of_reachable` — the answers agree in every run in which no worker refuses
* `not_cancelAgrees_of_refused` — and in no other
* `unknown_of_cancelledBy` — a worker refuses when it is asked again
-/

namespace Shabdiz

open WorkerNetwork NetworkConfig

variable {ω ι J V E : Type}

/-! ### Agreement -/

/-- The outcome `o` is what the job with this id has ended in. -/
def OwnOutcome (c : NetworkConfig ω ι J V E) (id : ι) (o : JobOutcome ι V E) : Prop :=
  ∃ w job, c.operation id = .submit w job ∧ .ended id job o ∈ (c.workers w).shared.log

/-- The answers of all calls of `FutureRemote.cancel` agree with the outcomes. -/
structure CancelAgrees (c : NetworkConfig ω ι J V E) : Prop where
  /-- The answer is `true` if and only if the future is cancelled. -/
  answer : ∀ j id b, c.launcher.thread j = .running (.cancel id (.returned b)) →
    (b = true ↔ (c.network.futures id).isCancelled = true)
  /-- After the answer `false` the outcome is the job's own, unless the submission has failed or the
  network is shut down. -/
  own : ∀ j id, c.launcher.thread j = .running (.cancel id (.returned false)) →
    ∃ o, (c.network.futures id).outcome = some o ∧ (OwnOutcome c id o ∨
      (∃ cause, .submissionFailed id cause ∈ c.network.log) ∨ .released id ∈ c.network.log)
  /-- All answers for a cancelled future are the same. -/
  repeated : ∀ j j' id b b', (c.network.futures id).isCancelled = true →
    c.launcher.thread j = .running (.cancel id (.returned b)) →
    c.launcher.thread j' = .running (.cancel id (.returned b')) → b = b'

/-- A call of `FutureRemote.cancel` has cancelled its future, and the worker does not answer
`true`: it answers `false`, does not know the job, or cannot be reached. -/
def RefusedOnRemote (c : NetworkConfig ω ι J V E) : NetworkAction ω ι V E → Prop
  | .launcher i (.cancelled result) =>
    (∃ id, c.launcher.thread i = .running (.cancel id .waiting)) ∧ result ≠ some true
  | _ => False

/-- How the future stands at a control point of a cancellation that is not refused. -/
def CancelHolds (f : CompletableFuture V (JobException ι E)) : CancelPoint → Prop
  | .entry => True
  | .waiting => f.isCancelled = true
  | .returned b => f.isDone = true ∧ (b = true ↔ f.isCancelled = true)

variable [DecidableEq ω] [DecidableEq ι] [DecidableEq J] [DecidableEq V] [DecidableEq E]

section Step

variable {c c' : NetworkConfig ω ι J V E} {a : NetworkAction ω ι V E}

/-- What a step means for call `j` on the launcher. -/
theorem thread_of_step (h : (jobMachine ω ι J V E).step c a = some c') (j : ι) :
    c'.launcher.thread j = c.launcher.thread j ∨
      (∃ o, c'.launcher.thread j = .running (LauncherOperation.start o)) ∨
      ∃ answer k k', a = .launcher j answer ∧ c.launcher.thread j = .running k ∧
        c'.launcher.thread j = .running k' ∧ k.next j answer c.network = some (c'.network, k') := by
  cases a with
  | launcher i answer =>
    simp only [jobMachine] at h
    split at h
    · obtain ⟨launcher, hl, rfl⟩ := Option.map_eq_some_iff.mp h
      by_cases hj : j = i
      · subst hj
        obtain ⟨o, ho, rfl⟩ | ⟨k, n', k', hk, hn, rfl⟩ := Interleaving.step_cases hl
        · exact Or.inr (Or.inl ⟨o, Function.update_self _ _ _⟩)
        · exact Or.inr (Or.inr ⟨answer, k, k', rfl, hk, Function.update_self _ _ _, hn⟩)
      · exact Or.inl (Interleaving.thread_step_of_ne hl hj)
    · cases h
  | _ =>
    have hs := networkStep_of_step h
    cases hs <;> exact Or.inl rfl

omit [DecidableEq ω] [DecidableEq J] [DecidableEq V] [DecidableEq E] in
/-- One step of a cancellation. -/
theorem cancelHolds_of_cancel {id : ι} {answer : LauncherAnswer ω ι V E}
    {n n' : WorkerNetwork ω ι J V E} {p p' : CancelPoint}
    (h : WorkerNetwork.cancel id answer n p = some (n', p')) (hp : CancelHolds (n.futures id) p)
    (hanswer : p = .waiting → ∀ result, answer = .cancelled result → result = some true) :
    CancelHolds (n'.futures id) p' := by
  cases p with
  | entry =>
    obtain ⟨-, h⟩ := Option.ite_none_right_eq_some.mp h
    obtain ⟨rfl, rfl⟩ := Prod.mk.inj (Option.some.inj h)
    simp only [record_futures, settle_futures, Function.update_self]
    cases hc : ((n.futures id).settle
      (.completedExceptionally .cancellationException)).isCancelled with
    | true => exact hc
    | false => exact ⟨CompletableFuture.isDone_settle, by simp [hc]⟩
  | waiting =>
    simp only [WorkerNetwork.cancel] at h
    split at h
    · rename_i result
      obtain rfl := hanswer rfl result rfl
      obtain ⟨rfl, rfl⟩ := Prod.mk.inj (Option.some.inj h)
      have hp : (n.futures id).isCancelled = true := hp
      exact ⟨CompletableFuture.isDone_iff.mpr ⟨_, CompletableFuture.isCancelled_iff.mp hp⟩,
        by simp [hp]⟩
    · cases h
  | returned b => cases h

omit [DecidableEq ι] [DecidableEq V] [DecidableEq E] in
/-- The future keeps its outcome. -/
theorem CancelHolds.mono {f f' : CompletableFuture V (JobException ι E)} {p : CancelPoint}
    (h : CancelHolds f p) (hf : ∀ o, f.outcome = some o → f'.outcome = some o) :
    CancelHolds f' p := by
  have hcancelled : f.isCancelled = true → f'.isCancelled = true := fun hc =>
    CompletableFuture.isCancelled_iff.mpr (hf _ (CompletableFuture.isCancelled_iff.mp hc))
  cases p with
  | entry => trivial
  | waiting => exact hcancelled h
  | returned b =>
    obtain ⟨hdone, hb⟩ := h
    obtain ⟨o, ho⟩ := CompletableFuture.isDone_iff.mp hdone
    have heq : f' = f := by
      obtain ⟨x⟩ := f
      obtain ⟨y⟩ := f'
      have hy : y = some o := hf o ho
      have hx : x = some o := ho
      rw [hx, hy]
    rw [heq]
    exact ⟨hdone, hb⟩

/-- **Cancellations that are not refused** answer as the future stands. -/
theorem cancelHolds_of_reachable
    (h : (jobMachine ω ι J V E).ReachableOf (fun c a => ¬ RefusedOnRemote c a) c) {j id : ι}
    {p : CancelPoint} (hj : c.launcher.thread j = .running (.cancel id p)) :
    CancelHolds (c.network.futures id) p := by
  refine h.invariant (I := fun c => ∀ p, c.launcher.thread j = .running (.cancel id p) →
    CancelHolds (c.network.futures id) p) (fun c hc p hj => ?_) ?_ p hj
  · obtain ⟨o, ho⟩ := thread_of_init hc j
    cases ho.symm.trans hj
  · intro c a c' hr hc hP hs p hj
    obtain heq | ⟨o, ho⟩ | ⟨answer, k, k', rfl, hk, hk', hn⟩ := thread_of_step hs j
    · rw [heq] at hj
      have hgrows := (networkStep_of_step hs).grows (bookkeeping_of_reachable hr.reachable)
      exact (hc p hj).mono (hgrows.network.outcome id)
    · have hstart := Thread.running.inj (ho.symm.trans hj)
      cases o <;> cases hstart
      trivial
    · obtain rfl := Thread.running.inj (hk'.symm.trans hj)
      cases k with
      | cancel id' q =>
        obtain ⟨⟨n₁, p₁⟩, hp, heq⟩ := Option.map_eq_some_iff.mp hn
        obtain ⟨rfl, hcall⟩ := Prod.mk.inj heq
        obtain ⟨rfl, rfl⟩ := LauncherCall.cancel.inj hcall
        refine cancelHolds_of_cancel hp (hc q hk) fun hq result hanswer => ?_
        subst hq hanswer
        by_contra hne
        exact hP ⟨⟨_, hk⟩, hne⟩
      | _ =>
        obtain ⟨r, -, heq⟩ := Option.map_eq_some_iff.mp hn
        cases congrArg Prod.snd heq

/-- **The answers agree with the outcomes** in every run in which no worker refuses to cancel. -/
theorem cancelAgrees_of_reachable
    (h : (jobMachine ω ι J V E).ReachableOf (fun c a => ¬ RefusedOnRemote c a) c) :
    CancelAgrees c := by
  have hanswer : ∀ j id b, c.launcher.thread j = .running (.cancel id (.returned b)) →
      (b = true ↔ (c.network.futures id).isCancelled = true) :=
    fun j id b hj => (cancelHolds_of_reachable h hj).2
  refine ⟨hanswer, fun j id hj => ?_, fun j j' id b b' hcancelled hj hj' => ?_⟩
  · obtain ⟨hdone, hb⟩ := cancelHolds_of_reachable h hj
    obtain ⟨o, ho⟩ := CompletableFuture.isDone_iff.mp hdone
    refine ⟨o, ho, ?_⟩
    cases source_of_outcome h.reachable ho with
    | ended hrequest hended =>
      exact Or.inl ⟨_, _, (bookkeeping_of_reachable h.reachable).operation hrequest, hended⟩
    | submissionFailed hlog => exact Or.inr (Or.inl ⟨_, hlog⟩)
    | released hlog => exact Or.inr (Or.inr hlog)
    | cancelled =>
      have hfalse := hb.mpr (CompletableFuture.isCancelled_iff.mpr ho)
      cases hfalse
  · have hb := (hanswer j id b hj).mpr hcancelled
    have hb' := (hanswer j' id b' hj').mpr hcancelled
    rw [hb, hb']

/-- **Every refusal is a disagreement.** -/
theorem not_cancelAgrees_of_refused
    (h : (jobMachine ω ι J V E).ReachableOf (fun c a => ¬ RefusedOnRemote c a) c)
    (hrefused : RefusedOnRemote c a) (hs : (jobMachine ω ι J V E).step c a = some c') :
    ¬ CancelAgrees c' := by
  intro hagrees
  cases a with
  | launcher i answer =>
    cases answer with
    | cancelled result =>
      obtain ⟨⟨id, hi⟩, hresult⟩ := hrefused
      have hcancelled : (c.network.futures id).isCancelled = true := cancelHolds_of_reachable h hi
      simp only [jobMachine] at hs
      obtain ⟨-, hs⟩ := Option.ite_none_right_eq_some.mp hs
      obtain ⟨launcher, hl, rfl⟩ := Option.map_eq_some_iff.mp hs
      obtain ⟨o, ho, -⟩ | ⟨k, n', k', hk, hn, rfl⟩ := Interleaving.step_cases hl
      · cases ho.symm.trans hi
      · obtain rfl := Thread.running.inj (hk.symm.trans hi)
        obtain ⟨rfl, rfl⟩ := Prod.mk.inj (Option.some.inj hn)
        have hfalse := (hagrees.answer i id _ (Function.update_self _ _ _)).mpr hcancelled
        rcases result with _ | _ | _
        · cases hfalse
        · cases hfalse
        · exact hresult rfl
    | _ => exact hrefused
  | _ => exact hrefused

end Step

/-! ### A request that is repeated -/

section Worker

variable {c c' : WorkerConfig ι J V E} {j id : ι} {b : Bool} {e : WorkerRemoteAnswer ι V E}

omit [DecidableEq V] [DecidableEq E] in
/-- **A worker does not cancel a job twice.** A request that comes when another one has succeeded is
answered with an `UnknownJobException`. -/
theorem unknown_of_cancelledBy (h : (workerMachine ι J V E).Reachable c) (hid : CancelledBy c id)
    (hj : c.thread j = .running (.cancel id b .entry))
    (hs : (workerMachine ι J V E).step c (j, e) = some c') :
    c'.thread j = .running (.cancel id b .unknown) := by
  have hkey := ((entries_of_reachable h).cancelled id hid).2
  obtain ⟨o, ho, -⟩ | ⟨k, w', k', hk, hn, rfl⟩ := Interleaving.step_cases hs
  · cases ho.symm.trans hj
  · obtain rfl := Thread.running.inj (hk.symm.trans hj)
    have hstep : WorkerStep j e c.shared (.cancel id b .entry) w' k' := workerStep_of_next hn
    cases hstep with
    | find hfound =>
      rw [hkey] at hfound
      cases hfound
    | miss => exact Function.update_self _ _ _

end Worker

/-! ### Two cancellations of one job -/

section Example

/-- Call `0` submits a job, and the others cancel it. On the worker, call `0` is the handler of the
submission and the others are the handlers of the cancel requests. -/
def submitCancelTwice : NetworkConfig Unit Nat Unit Unit Unit where
  launcher.shared := .new
  launcher.thread i := .ready (if i = 0 then .submit () () else .cancel 0)
  workers _ := ⟨.new, fun i => .ready (if i = 0 then .submit () else .cancel 0 true)⟩

theorem submitCancelTwice_init :
    (jobMachine Unit Nat Unit Unit Unit).init submitCancelTwice :=
  ⟨⟨rfl, fun _ => ⟨_, rfl⟩⟩, fun _ => ⟨rfl, fun _ => ⟨_, rfl⟩⟩⟩

/-- The job is submitted, and the first cancellation is answered `true`. -/
def cancelOnce : List (NetworkAction Unit Nat Unit Unit) :=
  List.replicate 4 (.launcher 0 .go) ++ List.replicate 3 (.worker () 0 .go) ++
    List.replicate 2 (.launcher 1 .go) ++ List.replicate 6 (.worker () 1 .go) ++
    [.launcher 1 (.cancelled (some true))]

/-- The worker refuses the second cancellation, and there is no answer. -/
def cancelAgain : List (NetworkAction Unit Nat Unit Unit) :=
  List.replicate 2 (.launcher 2 .go) ++ List.replicate 3 (.worker () 2 .go) ++
    [.launcher 2 (.cancelled none)]

/-- The job is cancelled twice, and the two answers are different. -/
theorem exists_not_cancelAgrees :
    ∃ c, (jobMachine Unit Nat Unit Unit Unit).Reachable c ∧
      .answered 2 0 (.completedExceptionally (.exception (.unknownJobException 0))) ∈
        (c.workers ()).shared.log ∧ ¬ CancelAgrees c := by
  obtain ⟨c, hr, hc⟩ := (jobMachine Unit Nat Unit Unit Unit).exists_run_of_exec submitCancelTwice
    (cancelOnce ++ cancelAgain)
    (fun c => (c.network.futures 0).isCancelled = true ∧
      c.launcher.thread 1 = .running (.cancel 0 (.returned true)) ∧
      c.launcher.thread 2 = .running (.cancel 0 (.returned false)) ∧
      .answered 2 0 (.completedExceptionally (.exception (.unknownJobException 0))) ∈
        (c.workers ()).shared.log) (by decide)
  obtain ⟨hcancelled, hfirst, hsecond, hunknown⟩ := of_decide_eq_true hc
  refine ⟨c, ⟨_, submitCancelTwice_init, hr⟩, hunknown, fun h => ?_⟩
  cases h.repeated 1 2 0 true false hcancelled hfirst hsecond

/-- An action that brings a cancellation no other answer than `true`. -/
def notRefusing (a : NetworkAction Unit Nat Unit Unit) : Bool :=
  match a with
  | .launcher _ (.cancelled result) => result = some true
  | _ => true

theorem not_refusedOnRemote_of_notRefusing {c : NetworkConfig Unit Nat Unit Unit Unit}
    {a : NetworkAction Unit Nat Unit Unit} (h : notRefusing a = true) :
    ¬ RefusedOnRemote c a := by
  intro hrefused
  unfold RefusedOnRemote at hrefused
  split at hrefused
  · next i result =>
    have hresult : result = some true := of_decide_eq_true h
    exact hrefused.2 hresult
  · exact hrefused

/-- The job is cancelled once. -/
theorem cancelAgrees_cancelOnce :
    ∃ c, c.launcher.thread 1 = .running (.cancel 0 (.returned true)) ∧
      CancelAgrees (c : NetworkConfig Unit Nat Unit Unit Unit) := by
  obtain ⟨c, hr, hc⟩ := (jobMachine Unit Nat Unit Unit Unit).exists_runOf_of_execOf
    (fun _ a => notRefusing a = true) submitCancelTwice cancelOnce
    (fun c => c.launcher.thread 1 = .running (.cancel 0 (.returned true))) (by decide)
  have hreach : (jobMachine Unit Nat Unit Unit Unit).ReachableOf
      (fun c a => ¬ RefusedOnRemote c a) c :=
    ⟨_, submitCancelTwice_init, hr.mono fun _ _ => not_refusedOnRemote_of_notRefusing⟩
  exact ⟨c, of_decide_eq_true hc, cancelAgrees_of_reachable hreach⟩

end Example

end Shabdiz
