import Shabdiz.Job.JobResults

/-!
# Futures whose worker is gone

`WorkerNetwork.shutdown` tells the futures that are still pending that no notification is going to
arrive. `WorkerManager.kill` destroys one worker, whose jobs will not notify the launcher either,
and tells nobody: the future of a job that the worker had accepted, and whose callback is not on its
way, stays pending until the network is shut down.

A job that the worker has not accepted is not left pending, since its submission fails.

## Main definitions

* `NoneLeftPending` — once a worker is killed and all its messages are dealt with, the futures of
  its jobs are done
* `AnswersAccepted` — a step that leaves no accepted job of a dead worker without an answer

## Main results

* `noneLeftPending_of_reachable` — with such steps only, no future is left pending
* `exists_leftPending` — a kill leaves one
-/

namespace Shabdiz

open WorkerNetwork NetworkConfig

variable {ω ι J V E : Type}

/-- When the kill of a worker has returned, and no callback from the worker and no submission to it
is left to deal with, every future returned for a job of that worker is done. -/
def NoneLeftPending (c : NetworkConfig ω ι J V E) : Prop :=
  ∀ w, (∃ j, c.launcher.thread j = .running (.kill w .returned)) →
    (∀ callback, OnTheWay c callback → callback.sender ≠ some w) →
    (∀ id job, c.network.requests id = some (w, job) → c.network.submissions id = .handled) →
    ∀ id job, c.operation id = .submit w job → c.network.returned id = true →
      (c.network.futures id).isDone = true

/-- The future of job `id` is done, or is going to be completed by a callback from `w`. -/
def Answered (c : NetworkConfig ω ι J V E) (w : ω) (id : ι) : Prop :=
  (c.network.futures id).isDone = true ∨
    ∃ callback, OnTheWay c callback ∧ callback.sender = some w ∧ callback.id = id

variable [DecidableEq ω] [DecidableEq ι] [DecidableEq J] [DecidableEq V] [DecidableEq E]

/-- A worker is killed only when every job it has accepted is answered, and from then on its
callbacks are lost only if they are not needed. -/
def AnswersAccepted (c : NetworkConfig ω ι J V E) : NetworkAction ω ι V E → Prop
  | .launcher i _ => ∀ w, c.launcher.thread i = .running (.kill w .entry) →
    ∀ id job, c.network.requests id = some (w, job) →
      .accepted id ∈ (c.workers w).shared.log → Answered c w id
  | .lose callback => ∀ w, callback.sender = some w → c.network.destroyed w = true →
    Answered (c.mapNetwork (.deliver callback)) w callback.id
  | _ => True

section Step

variable {c c' : NetworkConfig ω ι J V E} {a : NetworkAction ω ι V E}

/-! ### Callbacks arrive -/

omit [DecidableEq J] in
/-- A step of the launcher keeps a callback on its way, or completes its future. -/
theorem LauncherStep.onTheWay {callback : Callback ω ι V E} {i : ι}
    {answer : LauncherAnswer ω ι V E} {n' : WorkerNetwork ω ι J V E} {k k' : LauncherCall ω ι J V E}
    (hn : LauncherStep i answer c.network k n' k') (hk : c.launcher.thread i = .running k)
    (hway : OnTheWay c callback) (hid : callback.id ∈ c.network.idFutureMap) :
    callback ∈ n'.inFlight ∨
      (∃ j, handles (Function.update c.launcher.thread i (.running k') j) = some callback) ∨
      (n'.futures callback.id).isDone = true := by
  obtain hway | ⟨j, hj⟩ := hway
  · cases hn with
    | @receive callback' hmem =>
      by_cases heq : callback = callback'
      · subst heq
        refine Or.inr (Or.inl ⟨i, ?_⟩)
        rw [Function.update_self]
        rfl
      · exact Or.inl ((List.mem_erase_of_ne heq).mpr hway)
    | _ => exact Or.inl hway
  · by_cases hi : j = i
    · subst hi
      rw [hk] at hj
      cases hn with
      | know =>
        obtain rfl := Option.some.inj hj
        refine Or.inr (Or.inl ⟨j, ?_⟩)
        rw [Function.update_self]
        rfl
      | ignore hunknown =>
        obtain rfl := Option.some.inj hj
        exact absurd hid hunknown
      | complete =>
        obtain rfl := Option.some.inj hj
        refine Or.inr (Or.inr ?_)
        rw [settle_futures, Function.update_self]
        exact CompletableFuture.isDone_settle
      | forget hunknown =>
        obtain rfl := Option.some.inj hj
        exact absurd hid hunknown
      | _ => cases hj
    · refine Or.inr (Or.inl ⟨j, ?_⟩)
      rwa [Function.update_of_ne hi]

/-- A step keeps a job answered, unless it loses the callback. -/
theorem Answered.step {w : ω} {id : ι} (h : Answered c w id) (hs : NetworkStep c a c')
    (hc : Bookkeeping c) (hid : id ∈ c.network.idFutureMap)
    (hlose : ∀ callback, a = .lose callback → callback.sender = some w →
      Answered (c.mapNetwork (.deliver callback)) w callback.id) : Answered c' w id := by
  have hgrows := (hs.grows hc).network
  obtain hdone | ⟨callback, hway, hsender, rfl⟩ := h
  · exact Or.inl (hgrows.isDone hdone)
  · have hkeep : OnTheWay c' callback → Answered c' w callback.id :=
      fun h => Or.inr ⟨callback, h, hsender, rfl⟩
    cases hs with
    | @start i answer o ho =>
      refine hkeep (hway.imp_right ?_)
      rintro ⟨j, hj⟩
      refine ⟨j, ?_⟩
      have hne : j ≠ i := by
        rintro rfl
        rw [ho] at hj
        cases hj
      change handles (Function.update c.launcher.thread i (.running o.start) j) = _
      rwa [Function.update_of_ne hne]
    | @launcher i answer k n' k' hanswered hk hn =>
      obtain h | h | h := hn.onTheWay hk hway hid
      · exact hkeep (Or.inl h)
      · exact hkeep (Or.inr h)
      · exact Or.inl h
    | worker => exact hkeep (hway.imp_left (List.mem_append_left _))
    | duplicate => exact hkeep (hway.imp_left (List.mem_append_left _))
    | stray => exact hkeep (hway.imp_left (List.mem_append_left _))
    | @lose callback' hmem =>
      by_cases heq : callback = callback'
      · subst heq
        exact hlose callback rfl hsender
      · exact hkeep (hway.imp_left (List.mem_erase_of_ne heq).mpr)
    | _ => exact hkeep hway

/-! ### Submissions are answered -/

/-- What is known of job `id`, shipped to `w`, from the state of its submission. -/
def SubmissionSound (c : NetworkConfig ω ι J V E) (w : ω) (id : ι) : Submission ι E → Prop
  | .replied none => .accepted id ∈ (c.workers w).shared.log
  | .handled => .accepted id ∈ (c.workers w).shared.log ∨ (c.network.futures id).isDone = true
  | _ => True

/-- The submission has failed, or still may. -/
def Submission.unsettled : Submission ι E → Bool
  | .sent => true
  | .replied (some _) => true
  | _ => false

omit [DecidableEq ω] [DecidableEq ι] [DecidableEq J] [DecidableEq V] [DecidableEq E] in
theorem SubmissionSound.mono {w : ω} {id : ι} {s : Submission ι E}
    (h : SubmissionSound c w id s) (hg : c.Grows c') : SubmissionSound c' w id s := by
  unfold SubmissionSound at h ⊢
  split at h
  · exact hg.workerLog w _ h
  · exact h.imp (hg.workerLog w _) hg.network.isDone
  · trivial

/-- A job is shipped by its own call, and its submission is then sent. -/
theorem NetworkStep.request (hs : NetworkStep c a c') (hc : Bookkeeping c) {id : ι} {r : ω × J}
    (h : c'.network.requests id = some r) :
    c.network.requests id = some r ∨
      c.network.requests id = none ∧ c'.network.submissions id = .sent ∧
        c'.workers = c.workers := by
  cases hs with
  | @launcher i answer k n' k' hanswered hk hn =>
    cases hn with
    | @ship w job =>
      change Function.update c.network.requests i (some (w, job)) id = some r at h
      by_cases hid : id = i
      · subst hid
        have hnone : c.network.requests id = none := by
          rw [(hc id).request, hk]
          rfl
        exact Or.inr ⟨hnone, Function.update_self _ _ _, rfl⟩
      · rw [Function.update_of_ne hid] at h
        exact Or.inl h
    | _ => exact Or.inl h
  | _ => exact Or.inl h

/-- How the submission of a job goes on. -/
theorem NetworkStep.submission (hs : NetworkStep c a c') {id : ι} {r : ω × J}
    (hr : c.network.requests id = some r) (hc : Bookkeeping c) :
    c'.network.submissions id = c.network.submissions id ∨
      (∃ error, c.network.submissions id = .sent ∧ c'.network.submissions id = .replied error ∧
        (error = none → .accepted id ∈ (c.workers r.1).shared.log)) ∨
      (∃ cause, c.network.submissions id = .replied (some cause) ∧
        c'.network.submissions id = .handled ∧ (c'.network.futures id).isDone = true) ∨
      c.network.submissions id = .replied none ∧ c'.network.submissions id = .handled := by
  cases hs with
  | @launcher i answer k n' k' hanswered hk hn =>
    cases hn with
    | @ship w job =>
      have hid : id ≠ i := by
        rintro rfl
        rw [(hc id).request, hk] at hr
        cases hr
      exact Or.inl (Function.update_of_ne hid _ _)
    | _ => exact Or.inl rfl
  | @reply id' error hsent haccepted =>
    by_cases hid : id = id'
    · subst hid
      refine Or.inr (Or.inl ⟨error, hsent, Function.update_self _ _ _, fun herror => ?_⟩)
      have hmem := haccepted herror
      rw [acceptedBy, hr] at hmem
      exact of_decide_eq_true hmem
    · exact Or.inl (Function.update_of_ne hid _ _)
  | @fail id' cause hreplied =>
    by_cases hid : id = id'
    · subst hid
      refine Or.inr (Or.inr (Or.inl ⟨cause, hreplied, Function.update_self _ _ _, ?_⟩))
      change (Function.update c.network.futures id _ id).isDone = true
      rw [Function.update_self]
      exact CompletableFuture.isDone_settle
    · exact Or.inl (Function.update_of_ne hid _ _)
  | @succeed id' hreplied =>
    by_cases hid : id = id'
    · subst hid
      exact Or.inr (Or.inr (Or.inr ⟨hreplied, Function.update_self _ _ _⟩))
    · exact Or.inl (Function.update_of_ne hid _ _)
  | _ => exact Or.inl rfl

/-- **A submission that has not failed has been accepted.** -/
theorem submissionSound_of_reachable (h : (jobMachine ω ι J V E).Reachable c) {id : ι} {w : ω}
    {job : J} (hr : c.network.requests id = some (w, job)) :
    SubmissionSound c w id (c.network.submissions id) := by
  refine network_invariant (I := fun c => ∀ w job, c.network.requests id = some (w, job) →
    SubmissionSound c w id (c.network.submissions id)) h (fun c hc w job hr => ?_) ?_ w job hr
  · rw [network_of_init hc] at hr
    cases hr
  · intro c a c' hreach hc _ hs w job hr
    have hbooks := bookkeeping_of_reachable hreach
    have hgrows := hs.grows hbooks
    obtain hr' | ⟨-, hsent, -⟩ := hs.request hbooks hr
    · have hsound := (hc w job hr').mono hgrows
      obtain heq | ⟨error, -, heq, haccepted⟩ | ⟨cause, -, heq, hdone⟩ | ⟨hreplied, heq⟩ :=
        hs.submission hr' hbooks
      · rwa [heq]
      · rw [heq]
        cases error with
        | none => exact hgrows.workerLog w _ (haccepted rfl)
        | some cause => trivial
      · rw [heq]
        exact Or.inr hdone
      · rw [hreplied] at hsound
        rw [heq]
        exact Or.inl hsound
    · rw [hsent]
      trivial

/-! ### Kills -/

/-- A kill that has passed `worker.shutdown()` has destroyed the process. -/
theorem destroyed_of_reachable (h : (jobMachine ω ι J V E).Reachable c) {j : ι} {w : ω}
    {p : WorkerNetwork.KillPoint} (hj : c.launcher.thread j = .running (.kill w p))
    (hp : p ≠ .entry) : c.network.destroyed w = true := by
  refine network_invariant (I := fun c => ∀ p, c.launcher.thread j = .running (.kill w p) →
    p ≠ .entry → c.network.destroyed w = true) h (fun c hc p hj => ?_) ?_ p hj hp
  · obtain ⟨o, ho⟩ := thread_of_init hc j
    rw [ho] at hj
    cases hj
  · intro c a c' hreach hc _ hs p hj hp
    obtain heq | ⟨o, -, heq, -⟩ | ⟨answer, k, k', hk, heq, hn⟩ := hs.thread_cases j
    · rw [heq] at hj
      exact (hs.grows (bookkeeping_of_reachable hreach)).network.destroyed w (hc p hj hp)
    · rw [heq] at hj
      cases o with
      | kill w' =>
        obtain ⟨rfl, rfl⟩ := LauncherCall.kill.inj (Thread.running.inj hj)
        exact absurd rfl hp
      | _ => cases hj
    · rw [heq] at hj
      obtain rfl := Thread.running.inj hj
      generalize c'.network = n' at hn ⊢
      cases hn with
      | destroy => exact Function.update_self _ _ _
      | execute => exact hc _ hk (by simp)

/-- A worker dies by a kill. -/
theorem NetworkStep.destroyed (hs : NetworkStep c a c') {w : ω}
    (h : c'.network.destroyed w = true) :
    c.network.destroyed w = true ∨ ∃ i answer, a = .launcher i answer ∧
      c.launcher.thread i = .running (.kill w .entry) ∧ c'.workers = c.workers := by
  cases hs with
  | @launcher i answer k n' k' hanswered hk hn =>
    cases hn with
    | @destroy w' p =>
      by_cases hw : w = w'
      · subst hw
        exact Or.inr ⟨i, answer, rfl, hk, rfl⟩
      · change Function.update c.network.destroyed w' true w = true at h
        rw [Function.update_of_ne hw] at h
        exact Or.inl h
    | _ => exact Or.inl h
  | _ => exact Or.inl h

/-- A dead worker accepts nothing. -/
theorem NetworkStep.workers_of_destroyed (hs : NetworkStep c a c') {w : ω}
    (h : c.network.destroyed w = true) : c'.workers w = c.workers w := by
  cases hs with
  | @worker w' i answer worker halive hshipped hstep =>
    have hw : w ≠ w' := by
      rintro rfl
      rw [h] at halive
      cases halive
    exact Function.update_of_ne hw _ _
  | _ => rfl

/-! ### No future is left pending -/

/-- A job of a dead worker is answered, or the worker has not accepted it and its submission
fails. -/
def Accounted (c : NetworkConfig ω ι J V E) (w : ω) (id : ι) : Prop :=
  Answered c w id ∨
    (.accepted id ∉ (c.workers w).shared.log ∧ (c.network.submissions id).unsettled = true)

/-- **A kill that leaves no accepted job unanswered accounts for every job of the worker.** -/
theorem accounted_of_destroy (h : (jobMachine ω ι J V E).Reachable c) {w : ω} {id : ι} {job : J}
    (hr : c.network.requests id = some (w, job))
    (hanswered : .accepted id ∈ (c.workers w).shared.log → Answered c w id) :
    Accounted c w id := by
  by_cases haccepted : .accepted id ∈ (c.workers w).shared.log
  · exact Or.inl (hanswered haccepted)
  · have hsound := submissionSound_of_reachable h hr
    have hunsent := (bookkeeping_of_reachable h id).unsent
    unfold Accounted
    cases hsubmission : c.network.submissions id with
    | unsent =>
      rw [hunsent.mp hsubmission] at hr
      cases hr
    | sent => exact Or.inr ⟨haccepted, rfl⟩
    | replied error =>
      cases error with
      | none =>
        rw [hsubmission] at hsound
        exact absurd hsound haccepted
      | some cause => exact Or.inr ⟨haccepted, rfl⟩
    | handled =>
      rw [hsubmission] at hsound
      exact Or.inl (Or.inl (hsound.resolve_left haccepted))

/-- **The step lemma**: a job stays accounted for, as long as its worker does nothing and the
callbacks that are needed are not lost. -/
theorem Accounted.step {w : ω} {id : ι} {job : J} (h : Accounted c w id)
    (hreach : (jobMachine ω ι J V E).Reachable c) (hs : NetworkStep c a c')
    (hlose : ∀ callback, a = .lose callback → callback.sender = some w →
      Answered (c.mapNetwork (.deliver callback)) w callback.id)
    (hworker : c'.workers w = c.workers w) (hr : c.network.requests id = some (w, job)) :
    Accounted c' w id := by
  have hbooks := bookkeeping_of_reachable hreach
  obtain hanswered | ⟨haccepted, hunsettled⟩ := h
  · exact Or.inl (hanswered.step hs hbooks ((hbooks id).mem_idFutureMap hr) hlose)
  · obtain heq | ⟨error, -, heq, hreplied⟩ | ⟨cause, -, -, hdone⟩ | ⟨hreplied, -⟩ :=
      hs.submission hr hbooks
    · exact Or.inr ⟨by rwa [hworker], by rwa [heq]⟩
    · cases error with
      | none => exact absurd (hreplied rfl) haccepted
      | some cause => exact Or.inr ⟨by rwa [hworker], by rw [heq]; rfl⟩
    · exact Or.inl (Or.inl hdone)
    · rw [hreplied] at hunsettled
      cases hunsettled

/-- **The run lemma.** -/
theorem accounted_of_reachable (h : (jobMachine ω ι J V E).ReachableOf AnswersAccepted c) {w : ω}
    (hdestroyed : c.network.destroyed w = true) {id : ι} {job : J}
    (hr : c.network.requests id = some (w, job)) : Accounted c w id := by
  refine network_invariant (I := fun c => c.network.destroyed w = true → ∀ job,
    c.network.requests id = some (w, job) → Accounted c w id) h (fun c hc _ job hr => ?_) ?_
    hdestroyed job hr
  · rw [network_of_init hc] at hr
    cases hr
  · intro c a c' hreach hc hP hs hdestroyed job hr
    replace hreach := hreach.reachable
    obtain hr' | ⟨hnone, hsent, hworkers⟩ := hs.request (bookkeeping_of_reachable hreach) hr
    · obtain hdestroyed | ⟨i, answer, rfl, hthread, hworkers⟩ := hs.destroyed hdestroyed
      · refine (hc hdestroyed job hr').step hreach hs ?_ (hs.workers_of_destroyed hdestroyed) hr'
        rintro callback rfl hsender
        exact hP w hsender hdestroyed
      · have haccounted := accounted_of_destroy hreach hr' (hP w hthread id job hr')
        exact haccounted.step hreach hs (by simp) (congrFun hworkers w) hr'
    · -- the job is shipped to a worker that is gone
      refine Or.inr ⟨fun haccepted => ?_, by rw [hsent]; rfl⟩
      rw [hworkers] at haccepted
      obtain ⟨job', hr'⟩ := request_of_accepted hreach haccepted
      rw [hnone] at hr'
      cases hr'

/-- **No future is left pending** in a run whose kills leave no accepted job unanswered. -/
theorem noneLeftPending_of_reachable
    (h : (jobMachine ω ι J V E).ReachableOf AnswersAccepted c) : NoneLeftPending c := by
  rintro w ⟨j, hj⟩ hcallbacks hsubmissions id job hop hreturned
  have hbooks := bookkeeping_of_reachable h.reachable id
  obtain ⟨w', job', hthread⟩ := hbooks.returned hreturned
  obtain ⟨rfl, rfl⟩ := LauncherOperation.submit.inj ((operation_of_thread hthread).symm.trans hop)
  have hr : c.network.requests id = some (w', job') := by
    rw [hbooks.request, hthread]
    rfl
  have hdestroyed := destroyed_of_reachable h.reachable hj (by simp)
  obtain (hdone | ⟨callback, hway, hsender, -⟩) | ⟨-, hunsettled⟩ :=
    accounted_of_reachable h hdestroyed hr
  · exact hdone
  · exact absurd hsender (hcallbacks callback hway)
  · rw [hsubmissions id job' hr] at hunsettled
    cases hunsettled

end Step

/-! ### A future that is left pending -/

section Example

/-- Call `0` submits a job, call `1` kills the worker, call `2` handles a callback. On the worker,
call `0` is the handler of the submission, call `1` a pool thread and call `2` the handler of the
shutdown request. -/
def submitKillNotify : NetworkConfig Unit (Fin 3) Unit Unit Unit where
  launcher.shared := .new
  launcher.thread i := .ready (if i = 0 then .submit () () else if i = 1 then .kill ()
    else .notify)
  workers _ := ⟨.new, fun i => .ready (if i = 0 then .submit () else if i = 1 then .run
    else .shutdown)⟩

/-- The job is submitted, the worker accepts it and calls it. -/
def callingSchedule : List (NetworkAction Unit (Fin 3) Unit Unit) :=
  List.replicate 4 (.launcher 0 .go) ++ List.replicate 3 (.worker () 0 .go) ++
    [.reply 0 none, .handle 0, .worker () 1 .go, .worker () 1 (.take 0), .worker () 1 .go]

/-- The job returns, and the launcher handles the callback. -/
def notifySchedule : List (NetworkAction Unit (Fin 3) Unit Unit) :=
  [.worker () 1 (.ends (.completed ())), .worker () 1 .go, .worker () 1 .go, .launcher 2 .go,
    .launcher 2 (.receive ⟨some (), 0, .completed ()⟩), .launcher 2 .go, .launcher 2 .go]

/-- The worker is shut down and its process destroyed. -/
def destroySchedule : List (NetworkAction Unit (Fin 3) Unit Unit) :=
  List.replicate 3 (.worker () 2 .go) ++
    [.launcher 1 .go, .launcher 1 (.shutdown .returned), .launcher 1 (.execute (.ok ()))]

theorem submitKillNotify_init : (jobMachine Unit (Fin 3) Unit Unit Unit).init submitKillNotify :=
  ⟨⟨rfl, fun _ => ⟨_, rfl⟩⟩, fun _ => ⟨rfl, fun _ => ⟨_, rfl⟩⟩⟩

/-- The worker of a job is killed while the job runs. -/
theorem exists_leftPending :
    ∃ c, (jobMachine Unit (Fin 3) Unit Unit Unit).Reachable c ∧ ¬ NoneLeftPending c := by
  obtain ⟨c, hrun, hc⟩ := (jobMachine Unit (Fin 3) Unit Unit Unit).exists_run_of_exec
    submitKillNotify (callingSchedule ++ destroySchedule)
    (fun c => c.launcher.thread 1 = .running (.kill () .returned) ∧ c.network.inFlight = [] ∧
      (∀ j, handles (c.launcher.thread j) = none) ∧
      (∀ id, c.network.requests id = none ∨ c.network.submissions id = .handled) ∧
      c.operation 0 = .submit () () ∧ c.network.returned 0 = true ∧
      (c.network.futures 0).isDone = false) (by decide)
  obtain ⟨hkill, hflight, hhandles, hsubmissions, hop, hreturned, hpending⟩ :=
    of_decide_eq_true hc
  refine ⟨c, ⟨_, submitKillNotify_init, hrun⟩, fun h => ?_⟩
  have hdone := h () ⟨1, hkill⟩ ?_ ?_ 0 () hop hreturned
  · rw [hpending] at hdone
    cases hdone
  · rintro callback (hmem | ⟨j, hj⟩)
    · rw [hflight] at hmem
      cases hmem
    · rw [hhandles j] at hj
      cases hj
  · intro id job hr
    obtain hnone | hhandled := hsubmissions id
    · rw [hr] at hnone
      cases hnone
    · exact hhandled

/-- The worker is killed after the launcher has handled the callback of its job. -/
theorem noneLeftPending_notifySchedule :
    ∃ c : NetworkConfig Unit (Fin 3) Unit Unit Unit,
      c.launcher.thread 1 = .running (.kill () .returned) ∧ c.network.returned 0 = true ∧
        NoneLeftPending c := by
  obtain ⟨c, hrun, hc⟩ := (jobMachine Unit (Fin 3) Unit Unit Unit).exists_runOf_of_execOf
    (fun c a => (∀ i id, c.launcher.thread i = .running (.kill () .entry) →
        c.network.requests id = none ∨ (c.network.futures id).isDone = true) ∧
      (a matches .lose _) = false)
    submitKillNotify (callingSchedule ++ notifySchedule ++ destroySchedule)
    (fun c => c.launcher.thread 1 = .running (.kill () .returned) ∧
      c.network.returned 0 = true) (by decide)
  obtain ⟨hkill, hreturned⟩ := of_decide_eq_true hc
  have hreach : (jobMachine Unit (Fin 3) Unit Unit Unit).ReachableOf AnswersAccepted c := by
    refine ⟨_, submitKillNotify_init, hrun.mono fun d a hd => ?_⟩
    obtain ⟨hdone, hlose⟩ := hd
    cases a with
    | launcher i answer =>
      intro w hthread id job hr _
      obtain hnone | hid := hdone i id hthread
      · rw [hr] at hnone
        cases hnone
      · exact Or.inl hid
    | lose callback => cases hlose
    | _ => trivial
  exact ⟨c, hkill, hreturned, noneLeftPending_of_reachable hreach⟩

end Example

end Shabdiz
