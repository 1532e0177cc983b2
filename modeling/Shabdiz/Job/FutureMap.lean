import Shabdiz.Job.PendingFutures
import Mathlib.Data.Set.Card

/-!
# The entries of `id_future_map`

`Worker.submit` registers the future of a job under the job's id, and nothing takes it out again:
callbacks look futures up, and `releaseAllPendingFutures` passes over those that are done. So the
map holds every future that was ever handed out, and grows with each submission.

## Main definitions

* `Submitted` — the jobs whose futures were handed out
* `HoldsPending` — the map holds the pending ones

## Main results

* `idFutureMap_of_reachable` — it holds all of them, each once
* `exists_done_registered` — also those that are done
-/

namespace Shabdiz

open WorkerNetwork NetworkConfig

variable {ω ι J V E : Type}

/-- `Worker.submit` has returned the future of job `id`. -/
def Submitted (c : NetworkConfig ω ι J V E) (id : ι) : Prop :=
  ∃ w job, c.launcher.thread id = .running (.submit w job .returned)

/-- No `Worker.submit` is in progress. -/
def NoneSubmitting (c : NetworkConfig ω ι J V E) : Prop :=
  ∀ j w job p, c.launcher.thread j = .running (.submit w job p) → p = .returned

/-- The values of `id_future_map` are the futures that are handed out and not done. -/
def HoldsPending (c : NetworkConfig ω ι J V E) : Prop :=
  ∀ id, id ∈ c.network.idFutureMap ↔ Submitted c id ∧ (c.network.futures id).isDone = false

variable [DecidableEq ω] [DecidableEq ι] [DecidableEq J] [DecidableEq V] [DecidableEq E]

section Step

variable {c c' : NetworkConfig ω ι J V E} {a : NetworkAction ω ι V E}

/-- An entry is put by the submission of its job, and by nothing else. -/
theorem NetworkStep.idFutureMap (hs : NetworkStep c a c') :
    c'.network.idFutureMap = c.network.idFutureMap ∨ ∃ i w job,
      c.launcher.thread i = .running (.submit w job .entry) ∧
        c'.launcher.thread i = .running (.submit w job .registered) ∧
        c'.network.idFutureMap = i :: c.network.idFutureMap := by
  cases hs with
  | @launcher i answer k n' k' hanswered hk hn =>
    cases hn with
    | @register w job => exact Or.inr ⟨i, w, job, hk, Function.update_self _ _ _, rfl⟩
    | _ => exact Or.inl rfl
  | _ => exact Or.inl rfl

/-- **Every job is registered once.** -/
theorem nodup_idFutureMap (h : (jobMachine ω ι J V E).Reachable c) :
    c.network.idFutureMap.Nodup ∧ ∀ i w job,
      c.launcher.thread i = .running (.submit w job .entry) → i ∉ c.network.idFutureMap := by
  refine network_invariant (I := fun c => c.network.idFutureMap.Nodup ∧ ∀ i w job,
    c.launcher.thread i = .running (.submit w job .entry) → i ∉ c.network.idFutureMap) h
    (fun c hc => ?_) ?_
  · rw [network_of_init hc]
    simp
  · rintro c a c' hr ⟨hnodup, hentry⟩ - hs
    -- a submission that is at its beginning was so before, or has begun with this step
    have hbefore : ∀ i w job, c'.launcher.thread i = .running (.submit w job .entry) →
        i ∉ c.network.idFutureMap := by
      intro i w job hi
      obtain heq | ⟨o, ho, -, -⟩ | ⟨answer, k, k', -, heq, hn⟩ := hs.thread_cases i
      · exact hentry i w job (heq ▸ hi)
      · intro hmem
        obtain ⟨w', job', p, hp⟩ := (bookkeeping_of_reachable hr i).submitted hmem
        cases ho.symm.trans hp
      · obtain rfl := Thread.running.inj (heq.symm.trans hi)
        generalize c'.network = n' at hn
        cases hn
    obtain heq | ⟨i, w, job, hi, hi', heq⟩ := hs.idFutureMap
    · rw [heq]
      exact ⟨hnodup, hbefore⟩
    · rw [heq]
      refine ⟨List.nodup_cons.mpr ⟨hentry i w job hi, hnodup⟩, fun j w' job' hj hmem => ?_⟩
      obtain rfl | hmem := List.mem_cons.mp hmem
      · cases hi'.symm.trans hj
      · exact hbefore j w' job' hj hmem

/-- **`id_future_map` holds all results.** While no submission is in progress its keys are the ids
of the jobs whose futures were handed out, done or not, each once; and what it holds it holds for
ever. -/
theorem idFutureMap_of_reachable (h : (jobMachine ω ι J V E).Reachable c) :
    (NoneSubmitting c → (∀ id, id ∈ c.network.idFutureMap ↔ Submitted c id) ∧
      c.network.idFutureMap.Nodup ∧
      c.network.idFutureMap.length = {id | Submitted c id}.ncard) ∧
    ∀ c', (jobMachine ω ι J V E).Run c c' →
      ∀ id ∈ c.network.idFutureMap, id ∈ c'.network.idFutureMap := by
  refine ⟨fun hrest => ?_, fun c' hrun => (grows_of_run h hrun).network.registered⟩
  have hmem : ∀ id, id ∈ c.network.idFutureMap ↔ Submitted c id := by
    intro id
    have hbooks := bookkeeping_of_reachable h id
    constructor
    · intro hid
      obtain ⟨w, job, p, hp⟩ := hbooks.submitted hid
      obtain rfl := hrest id w job p hp
      exact ⟨w, job, hp⟩
    · rintro ⟨w, job, hp⟩
      exact hbooks.registered w job .returned hp (by simp)
  have hnodup := (nodup_idFutureMap h).1
  refine ⟨hmem, hnodup, ?_⟩
  have hset : {id | Submitted c id} = (c.network.idFutureMap.toFinset : Set ι) := by
    ext id
    simp [hmem]
  rw [hset, Set.ncard_coe_finset, List.toFinset_card_of_nodup hnodup]

end Step

/-! ### A result that is not pending -/

section Example

theorem noneSubmitting_of_returned {c : NetworkConfig Unit (Fin 3) Unit Unit Unit}
    (hsubmit : c.launcher.thread 0 = .running (.submit () () .returned))
    (hkill : c.operation 1 = .kill ()) (hnotify : c.operation 2 = .notify) :
    NoneSubmitting c := by
  intro j w job p hp
  have hop := operation_of_thread hp
  match j with
  | 0 => exact (LauncherCall.submit.inj (Thread.running.inj (hp.symm.trans hsubmit))).2.2
  | 1 => cases hop.symm.trans hkill
  | 2 => cases hop.symm.trans hnotify

/-- The submission is handled, the job has returned and its callback has been handled. -/
theorem exists_done_registered :
    ∃ c, (jobMachine Unit (Fin 3) Unit Unit Unit).Reachable c ∧ NoneSubmitting c ∧
      (∀ callback, ¬ OnTheWay c callback) ∧ c.network.submissions 0 = .handled ∧
      ¬ HoldsPending c := by
  obtain ⟨c, hrun, hc⟩ := (jobMachine Unit (Fin 3) Unit Unit Unit).exists_run_of_exec
    submitKillNotify (callingSchedule ++ notifySchedule)
    (fun c => c.launcher.thread 0 = .running (.submit () () .returned) ∧
      c.operation 1 = .kill () ∧ c.operation 2 = .notify ∧
      (∀ j, handles (c.launcher.thread j) = none) ∧ c.network.inFlight = [] ∧
      c.network.submissions 0 = .handled ∧ 0 ∈ c.network.idFutureMap ∧
      (c.network.futures 0).isDone = true) (by decide)
  obtain ⟨hsubmit, hkill, hnotify, hhandles, hflight, hhandled, hmem, hdone⟩ :=
    of_decide_eq_true hc
  refine ⟨c, ⟨_, submitKillNotify_init, hrun⟩, noneSubmitting_of_returned hsubmit hkill hnotify, ?_,
    hhandled, fun h => ?_⟩
  · rintro callback (hin | ⟨j, hj⟩)
    · rw [hflight] at hin
      cases hin
    · rw [hhandles j] at hj
      cases hj
  · rw [((h 0).mp hmem).2] at hdone
    cases hdone

/-- The one future that was handed out is in the map. -/
theorem idFutureMap_notifySchedule :
    ∃ c : NetworkConfig Unit (Fin 3) Unit Unit Unit, (c.network.futures 0).isDone = true ∧
      (∀ id, id ∈ c.network.idFutureMap ↔ Submitted c id) ∧ c.network.idFutureMap.Nodup ∧
      c.network.idFutureMap.length = {id | Submitted c id}.ncard := by
  obtain ⟨c, hrun, hc⟩ := (jobMachine Unit (Fin 3) Unit Unit Unit).exists_run_of_exec
    submitKillNotify (callingSchedule ++ notifySchedule)
    (fun c => c.launcher.thread 0 = .running (.submit () () .returned) ∧
      c.operation 1 = .kill () ∧ c.operation 2 = .notify ∧
      (c.network.futures 0).isDone = true) (by decide)
  obtain ⟨hsubmit, hkill, hnotify, hdone⟩ := of_decide_eq_true hc
  have hreach : (jobMachine Unit (Fin 3) Unit Unit Unit).Reachable c :=
    ⟨_, submitKillNotify_init, hrun⟩
  exact ⟨c, hdone, (idFutureMap_of_reachable hreach).1
    (noneSubmitting_of_returned hsubmit hkill hnotify)⟩

end Example

end Shabdiz
