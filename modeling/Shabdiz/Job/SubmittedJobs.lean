import Shabdiz.Job.CancelledJobs
import Shabdiz.Job.JobResults

/-!
# The entries of `submitted_jobs`

A worker puts a job into `submitted_jobs` before it hands the task to the executor, and takes it out
at the end of the task or when a request cancels it. Two paths take nothing out: an executor that
rejects the task makes `submit` throw with the entry in place, and `shutdownNow` discards tasks
whose entries stay.

## Main definitions

* `Unfinished` — the jobs that should have an entry
* `KeysExact` — they are the ones that have
* `Leaks` — the step that leaves an entry behind

## Main results

* `entries_of_reachable` — how an entry comes and goes
* `keysExact_iff` — the keys are exact when no entry belongs to a rejected or discarded task
* `keysExact_of_reachable` — they are in every run that leaves no entry behind
-/

namespace Shabdiz

open DefaultWorkerRemote

variable {ι J V E : Type}

/-! ### One entry -/

/-- Job `id` has been put into `submitted_jobs`, whether or not it is still there. -/
def Registered (id : ι) (w : DefaultWorkerRemote ι J V E) : Prop :=
  ∃ job, .submitted id job ∈ w.log

/-- The task of job `id` is neither in the queue nor has it been taken out of it. -/
def Discarded (id : ι) (w : DefaultWorkerRemote ι J V E) : Prop :=
  .began id ∉ w.log ∧ ∀ job, (id, job) ∉ w.queue

/-- A cancel request for job `id` has succeeded, and is answered or about to be. -/
def CancelledBy (c : WorkerConfig ι J V E) (id : ι) : Prop :=
  (∃ request, .answered request id (.completed true) ∈ c.shared.log) ∨
    ∃ j b, c.thread j = .running (.cancel id b (.answering true))

/-- A cancel request has found the entry of its job. -/
def DefaultWorkerRemote.CancelPoint.hasFound : DefaultWorkerRemote.CancelPoint → Bool
  | found => true
  | got => true
  | decided _ => true
  | answering _ => true
  | _ => false

variable [DecidableEq ι] [DecidableEq J]

section Step

variable {i : ι} {answer : WorkerRemoteAnswer ι V E} {w w' : DefaultWorkerRemote ι J V E}
  {k k' : WorkerCall ι J V E}

/-- **How an entry comes and goes.** -/
theorem WorkerStep.entry (hs : WorkerStep i answer w k w' k') (id : ι) :
    w'.submittedJobs id = w.submittedJobs id ∨
      (id = i ∧ w'.submittedJobs id = true ∧ ∃ job, k = .submit job .entry) ∨
      (w'.submittedJobs id = false ∧ (k = .run (.removing id) ∨
        ∃ b, k = .cancel id b (.decided true) ∧ k' = .cancel id b (.answering true))) := by
  cases hs with
  | @put job =>
    by_cases hid : id = i
    · subst hid
      exact Or.inr (Or.inl ⟨rfl, by simp, job, rfl⟩)
    · exact Or.inl (by simp [hid])
  | @remove id' =>
    by_cases hid : id = id'
    · subst hid
      exact Or.inr (Or.inr ⟨by simp, Or.inl rfl⟩)
    · exact Or.inl (by simp [hid])
  | @forget id' b =>
    by_cases hid : id = id'
    · subst hid
      exact Or.inr (Or.inr ⟨by simp, Or.inr ⟨b, rfl, rfl⟩⟩)
    · exact Or.inl (by simp [hid])
  | _ => exact Or.inl rfl

theorem WorkerStep.registered (hs : WorkerStep i answer w k w' k') {id : ι} :
    Registered id w' ↔ Registered id w ∨ (id = i ∧ ∃ job, k = .submit job .entry) := by
  constructor
  · rintro ⟨job, hmem⟩
    obtain hmem | ⟨rfl, rfl⟩ := hs.submitted hmem
    · exact Or.inl ⟨job, hmem⟩
    · exact Or.inr ⟨rfl, job, rfl⟩
  · rintro (⟨job, hmem⟩ | ⟨rfl, job, rfl⟩)
    · exact ⟨job, hs.log_mono hmem⟩
    · cases hs
      exact ⟨job, by simp⟩

/-- A launcher is notified by the task of the job. -/
theorem WorkerStep.notified (hs : WorkerStep i answer w k w' k') {id : ι} {o : JobOutcome ι V E}
    (h : .notified id o ∈ w'.log) : .notified id o ∈ w.log ∨ k' = .run (.removing id) := by
  cases hs with
  | notify =>
    obtain h | h := List.mem_append.mp h
    · exact Or.inl h
    · obtain ⟨rfl, rfl⟩ := WorkerEvent.notified.inj (List.mem_singleton.mp h)
      exact Or.inr rfl
  | _ => exact Or.inl (by simpa using h)

/-- A request is answered `true` by its handler. -/
theorem WorkerStep.answered (hs : WorkerStep i answer w k w' k') {request id : ι}
    (h : .answered request id (.completed true) ∈ w'.log) :
    .answered request id (.completed true) ∈ w.log ∨ ∃ b, k = .cancel id b (.answering true) := by
  cases hs with
  | @answer id' b cancelled =>
    obtain h | h := List.mem_append.mp h
    · exact Or.inl h
    · obtain ⟨rfl, rfl, heq⟩ := WorkerEvent.answered.inj (List.mem_singleton.mp h)
      obtain rfl := Outcome.completed.inj heq
      exact Or.inr ⟨b, rfl⟩
  | _ => exact Or.inl (by simpa using h)

end Step

section Cancelled

variable {c : WorkerConfig ι J V E} {i id : ι} {answer : WorkerRemoteAnswer ι V E}
  {w' : DefaultWorkerRemote ι J V E} {k k' : WorkerCall ι J V E}

/-- The worker after call `i` has taken a step to `k'`. -/
abbrev WorkerConfig.after (c : WorkerConfig ι J V E) (i : ι) (w' : DefaultWorkerRemote ι J V E)
    (k' : WorkerCall ι J V E) : WorkerConfig ι J V E :=
  ⟨w', Function.update c.thread i (.running k')⟩

omit [DecidableEq J] in
/-- A call after the step is the one that took it, or has not moved. -/
theorem thread_after {j : ι} {x : WorkerCall ι J V E}
    (hj : (c.after i w' k').thread j = .running x) :
    (j = i ∧ x = k') ∨ (j ≠ i ∧ c.thread j = .running x) := by
  change Function.update c.thread i (.running k') j = _ at hj
  by_cases hji : j = i
  · subst hji
    rw [Function.update_self] at hj
    exact Or.inl ⟨rfl, (Thread.running.inj hj).symm⟩
  · rw [Function.update_of_ne hji] at hj
    exact Or.inr ⟨hji, hj⟩

/-- A cancellation succeeds as its handler removes the entry. -/
theorem cancelledBy_after (hk : c.thread i = .running k)
    (hs : WorkerStep i answer c.shared k w' k') :
    CancelledBy (c.after i w' k') id ↔
      CancelledBy c id ∨ ∃ b, k' = .cancel id b (.answering true) := by
  constructor
  · rintro (⟨request, h⟩ | ⟨j, b, hj⟩)
    · obtain h | ⟨b, rfl⟩ := hs.answered h
      · exact Or.inl (Or.inl ⟨request, h⟩)
      · exact Or.inl (Or.inr ⟨i, b, hk⟩)
    · obtain ⟨-, hk'⟩ | ⟨-, hj⟩ := thread_after hj
      · exact Or.inr ⟨b, hk'.symm⟩
      · exact Or.inl (Or.inr ⟨j, b, hj⟩)
  · rintro ((⟨request, h⟩ | ⟨j, b, hj⟩) | ⟨b, rfl⟩)
    · exact Or.inl ⟨request, hs.log_mono h⟩
    · by_cases hji : j = i
      · subst hji
        obtain rfl := Thread.running.inj (hk.symm.trans hj)
        cases hs
        exact Or.inl ⟨j, by simp⟩
      · refine Or.inr ⟨j, b, ?_⟩
        change Function.update c.thread i (.running k') j = _
        rwa [Function.update_of_ne hji]
    · exact Or.inr ⟨i, b, Function.update_self _ _ _⟩

end Cancelled

/-! ### All entries -/

/-- What holds of the entries of `submitted_jobs`. -/
structure Entries (c : WorkerConfig ι J V E) : Prop where
  registered : ∀ id, c.shared.submittedJobs id = true → Registered id c.shared
  submitted : ∀ id job p, c.thread id = .running (.submit job p) →
    (Registered id c.shared ↔ p ≠ .entry)
  removing : ∀ j id, c.thread j = .running (.run (.removing id)) →
    ∃ o, .notified id o ∈ c.shared.log
  /-- Once the launcher is notified, the entry is there until the `finally` block has run. -/
  notified : ∀ id o, .notified id o ∈ c.shared.log → c.shared.submittedJobs id = true →
    ∃ j, c.thread j = .running (.run (.removing id))
  found : ∀ j id b p, c.thread j = .running (.cancel id b p) → p.hasFound = true →
    Registered id c.shared
  cancelled : ∀ id, CancelledBy c id → Registered id c.shared ∧ c.shared.submittedJobs id = false
  /-- An entry is removed at the end of the task or by a cancellation. -/
  removed : ∀ id, Registered id c.shared → c.shared.submittedJobs id = false →
    (∃ o, .notified id o ∈ c.shared.log) ∨ CancelledBy c id

section Entries

variable {c : WorkerConfig ι J V E} {i : ι} {answer : WorkerRemoteAnswer ι V E}
  {w' : DefaultWorkerRemote ι J V E} {k k' : WorkerCall ι J V E}
  {P : WorkerConfig ι J V E → ι × WorkerRemoteAnswer ι V E → Prop}

/-- The invariant rule for a worker with its calls, a call that begins and a step apart. -/
theorem workerConfig_invariant {I : WorkerConfig ι J V E → Prop}
    (h : (workerMachine ι J V E).ReachableOf P c)
    (hinit : ∀ c, (workerMachine ι J V E).init c → I c)
    (hstart : ∀ c i o, (workerMachine ι J V E).ReachableOf P c → I c → c.thread i = .ready o →
      I (c.after i c.shared o.start))
    (hstep : ∀ c i e k w' k', (workerMachine ι J V E).ReachableOf P c → I c → P c (i, e) →
      c.thread i = .running k → k.next i e c.shared = some (w', k') → I (c.after i w' k')) :
    I c := by
  refine h.invariant hinit ?_
  rintro c ⟨i, e⟩ c' hr hc hP hs
  obtain ⟨o, ho, rfl⟩ | ⟨k, w', k', hk, hn, rfl⟩ := Interleaving.step_cases hs
  · exact hstart c i o hr hc ho
  · exact hstep c i e k w' k' hr hc hP hk hn

omit [DecidableEq J] in
/-- A call that begins has found nothing, removed nothing and cancelled nothing. -/
theorem Entries.start (h : Entries c) {o : WorkerOperation ι J} (ho : c.thread i = .ready o)
    (hready : ¬ Registered i c.shared) : Entries (c.after i c.shared o.start) := by
  have hcancelled : ∀ id, CancelledBy (c.after i c.shared o.start) id ↔ CancelledBy c id := by
    intro id
    refine or_congr Iff.rfl ⟨?_, ?_⟩
    · rintro ⟨j, b, hj⟩
      obtain ⟨rfl, hx⟩ | ⟨-, hj⟩ := thread_after hj
      · cases o <;> cases hx
      · exact ⟨j, b, hj⟩
    · rintro ⟨j, b, hj⟩
      have hji : j ≠ i := by
        rintro rfl
        cases ho.symm.trans hj
      exact ⟨j, b, (Function.update_of_ne hji _ _).trans hj⟩
  refine ⟨h.registered, fun id job p hj => ?_, fun j id hj => ?_, fun id o' hmem hkey => ?_,
    fun j id b p hj hp => ?_, fun id hid => h.cancelled id ((hcancelled id).mp hid),
    fun id hid hkey => (h.removed id hid hkey).imp_right (hcancelled id).mpr⟩
  · obtain ⟨rfl, hx⟩ | ⟨-, hj⟩ := thread_after hj
    · cases o <;> cases hx
      exact ⟨fun hreg => absurd hreg hready, fun hp => absurd rfl hp⟩
    · exact h.submitted id job p hj
  · obtain ⟨rfl, hx⟩ | ⟨-, hj⟩ := thread_after hj
    · cases o <;> cases hx
    · exact h.removing j id hj
  · obtain ⟨j, hj⟩ := h.notified id o' hmem hkey
    have hji : j ≠ i := by
      rintro rfl
      cases ho.symm.trans hj
    exact ⟨j, (Function.update_of_ne hji _ _).trans hj⟩
  · obtain ⟨rfl, hx⟩ | ⟨-, hj⟩ := thread_after hj
    · cases o <;> cases hx
      cases hp
    · exact h.found j id b p hj hp

omit [DecidableEq ι] [DecidableEq J] in
/-- A submission that has not registered its job yet is the only call that puts an entry. -/
theorem Entries.not_registered (h : Entries c) (hk : c.thread i = .running k) {id : ι} {job : J}
    (hid : id = i) (hput : k = .submit job .entry) : ¬ Registered id c.shared := by
  subst hid hput
  intro hreg
  exact (h.submitted id job .entry hk).mp hreg rfl

theorem Entries.submitted_step (h : Entries c) (hk : c.thread i = .running k)
    (hs : WorkerStep i answer c.shared k w' k') (id : ι) (job : J) (p : SubmitPoint)
    (hj : (c.after i w' k').thread id = .running (.submit job p)) :
    Registered id w' ↔ p ≠ .entry := by
  have hreg : Registered id c.shared → Registered id w' := fun hid => hs.registered.mpr (Or.inl hid)
  obtain ⟨rfl, hx⟩ | ⟨hid, hj⟩ := thread_after hj
  · subst hx
    cases hs with
    | put => exact ⟨fun _ => by simp, fun _ => ⟨job, by simp⟩⟩
    | reject | enqueue =>
      have hid := (h.submitted id job .registered hk).mpr (by simp)
      exact ⟨fun _ => by simp, fun _ => hreg hid⟩
  · rw [← h.submitted id job p hj]
    exact ⟨fun hid' => (hs.registered.mp hid').resolve_right fun hnot => hid hnot.1, hreg⟩

/-- Between the notification and the end of the `finally` block the entry stays. -/
theorem Entries.notified_step (h : Entries c) (hlog : JobLog c.shared)
    (hk : c.thread i = .running k) (hs : WorkerStep i answer c.shared k w' k') (id : ι)
    (o : JobOutcome ι V E) (hmem : .notified id o ∈ w'.log) (hkey : w'.submittedJobs id = true) :
    ∃ j, (c.after i w' k').thread j = .running (.run (.removing id)) := by
  obtain hmem | hk' := hs.notified hmem
  · have hnotified : Registered id c.shared := by
      obtain ⟨job, hended⟩ := hlog.notified id o hmem
      exact ⟨job, hlog.ended id job o hended⟩
    obtain hsame | ⟨hid, -, job, hput⟩ | ⟨hfalse, -⟩ := hs.entry id
    · obtain ⟨j, hj⟩ := h.notified id o hmem (hsame ▸ hkey)
      have hji : j ≠ i := by
        -- the `finally` block of `i` would remove the entry
        rintro rfl
        obtain rfl := Thread.running.inj (hk.symm.trans hj)
        cases hs
        simp at hkey
      exact ⟨j, (Function.update_of_ne hji _ _).trans hj⟩
    · exact absurd hnotified (h.not_registered hk hid hput)
    · rw [hfalse] at hkey
      cases hkey
  · subst hk'
    exact ⟨i, Function.update_self _ _ _⟩

theorem Entries.found_step (h : Entries c) (hk : c.thread i = .running k)
    (hs : WorkerStep i answer c.shared k w' k') (j id : ι) (b : Bool) (p : CancelPoint)
    (hj : (c.after i w' k').thread j = .running (.cancel id b p)) (hp : p.hasFound = true) :
    Registered id w' := by
  refine hs.registered.mpr (Or.inl ?_)
  obtain ⟨rfl, hx⟩ | ⟨-, hj⟩ := thread_after hj
  · subst hx
    cases hs with
    | find hkey => exact h.registered id hkey
    | get | cancel | forget | keep => exact h.found j id b _ hk rfl
    | _ => cases hp
  · exact h.found j id b p hj hp

/-- A cancelled job has no entry, and gets none. -/
theorem Entries.cancelled_step (h : Entries c) (hk : c.thread i = .running k)
    (hs : WorkerStep i answer c.shared k w' k') (id : ι) (hid : CancelledBy (c.after i w' k') id) :
    Registered id w' ∧ w'.submittedJobs id = false := by
  obtain hid | ⟨b, rfl⟩ := (cancelledBy_after hk hs).mp hid
  · obtain ⟨hreg, hkey⟩ := h.cancelled id hid
    refine ⟨hs.registered.mpr (Or.inl hreg), ?_⟩
    obtain hsame | ⟨heq, -, job, hput⟩ | ⟨hfalse, -⟩ := hs.entry id
    · exact hsame.trans hkey
    · exact absurd hreg (h.not_registered hk heq hput)
    · exact hfalse
  · have hreg : Registered id c.shared := by
      cases hs
      exact h.found i id b _ hk rfl
    refine ⟨hs.registered.mpr (Or.inl hreg), ?_⟩
    cases hs
    simp

/-- An entry that is gone was removed at the end of the task or by a cancellation. -/
theorem Entries.removed_step (h : Entries c) (hk : c.thread i = .running k)
    (hs : WorkerStep i answer c.shared k w' k') (id : ι) (hid : Registered id w')
    (hkey : w'.submittedJobs id = false) :
    (∃ o, .notified id o ∈ w'.log) ∨ CancelledBy (c.after i w' k') id := by
  obtain hsame | ⟨-, htrue, -⟩ | ⟨-, rfl | ⟨b, -, hk'⟩⟩ := hs.entry id
  · obtain hid | ⟨rfl, job, rfl⟩ := hs.registered.mp hid
    · obtain ⟨o, hmem⟩ | hcancel := h.removed id hid (hsame ▸ hkey)
      · exact Or.inl ⟨o, hs.log_mono hmem⟩
      · exact Or.inr ((cancelledBy_after hk hs).mpr (Or.inl hcancel))
    · cases hs
      simp at hkey
  · rw [htrue] at hkey
    cases hkey
  · obtain ⟨o, hmem⟩ := h.removing i id hk
    exact Or.inl ⟨o, hs.log_mono hmem⟩
  · exact Or.inr ((cancelledBy_after hk hs).mpr (Or.inr ⟨b, hk'⟩))

/-- **The step lemma.** -/
theorem Entries.step (h : Entries c) (hlog : JobLog c.shared) (hk : c.thread i = .running k)
    (hs : WorkerStep i answer c.shared k w' k') : Entries (c.after i w' k') where
  registered id hkey := by
    obtain hsame | ⟨rfl, -, job, rfl⟩ | ⟨hfalse, -⟩ := hs.entry id
    · exact hs.registered.mpr (Or.inl (h.registered id (hsame ▸ hkey)))
    · exact hs.registered.mpr (Or.inr ⟨rfl, job, rfl⟩)
    · have hkey : w'.submittedJobs id = true := hkey
      rw [hfalse] at hkey
      cases hkey
  submitted := h.submitted_step hk hs
  removing j id hj := by
    obtain ⟨rfl, hx⟩ | ⟨-, hj⟩ := thread_after hj
    · subst hx
      cases hs with
      | @notify _ o => exact ⟨o, by simp⟩
    · obtain ⟨o, hmem⟩ := h.removing j id hj
      exact ⟨o, hs.log_mono hmem⟩
  notified := h.notified_step hlog hk hs
  found := h.found_step hk hs
  cancelled := h.cancelled_step hk hs
  removed := h.removed_step hk hs

theorem entries_of_reachable (h : (workerMachine ι J V E).Reachable c) : Entries c := by
  refine workerConfig_invariant h (fun c hc => ?_) (fun c i o hr hc ho => hc.start ho ?_)
    fun c i e k w' k' hr hc _ hk hn => hc.step (jobLog_of_reachable hr).1 hk (workerStep_of_next hn)
  · obtain ⟨hshared, hready⟩ := hc
    have hnone : ∀ j x, c.thread j ≠ .running x := by
      intro j x hj
      obtain ⟨o, ho⟩ := hready j
      cases ho.symm.trans hj
    refine ⟨by simp [hshared], fun id job p hj => absurd hj (hnone _ _),
      fun j id hj => absurd hj (hnone _ _), by simp [hshared],
      fun j id b p hj => absurd hj (hnone _ _), ?_, by simp [hshared, Registered]⟩
    rintro id (⟨request, hmem⟩ | ⟨j, b, hj⟩)
    · simp [hshared] at hmem
    · exact absurd hj (hnone _ _)
  · rintro ⟨job, hmem⟩
    obtain ⟨p, hp⟩ := ((jobLog_of_reachable hr).2 i).submitted job hmem
    cases ho.symm.trans hp

end Entries

/-! ### When nothing is in flight -/

/-- Whether a call is not in the middle of its work. A job may be running. -/
def WorkerCall.atRest : WorkerCall ι J V E → Bool
  | submit _ .returned => true
  | submit _ .rejected => true
  | run .idle => true
  | run (.begun _ _) => true
  | run (.calling _ _) => true
  | run .finished => true
  | cancel _ _ .answered => true
  | cancel _ _ .thrown => true
  | shutdown .finished => true
  | _ => false

/-- No `submit`, no cancellation, no shutdown and no completion of a job is in flight. -/
def AtRest (c : WorkerConfig ι J V E) : Prop :=
  ∀ j k, c.thread j = .running k → k.atRest = true

/-- The `submit` of job `id` has returned normally, and its task has neither finished nor been
discarded nor cancelled. -/
structure Unfinished (c : WorkerConfig ι J V E) (id : ι) : Prop where
  returned : ∃ job, c.thread id = .running (.submit job .returned)
  notFinished : ∀ o, .notified id o ∉ c.shared.log
  notDiscarded : ¬ Discarded id c.shared
  notCancelled : ∀ request, .answered request id (.completed true) ∉ c.shared.log

/-- The keys of `submitted_jobs` are the unfinished jobs. -/
def KeysExact (c : WorkerConfig ι J V E) : Prop :=
  ∀ id, c.shared.submittedJobs id = true ↔ Unfinished c id

/-- A submission that throws leaves `submitted_jobs` as it was: without an entry of its own. -/
def RejectedClean (c : WorkerConfig ι J V E) : Prop :=
  ∀ id job, c.thread id = .running (.submit job .rejected) → c.shared.submittedJobs id = false

section AtRest

variable {c : WorkerConfig ι J V E}

/-- An unfinished job has an entry. -/
theorem Unfinished.mem_submittedJobs {id : ι} (hid : Unfinished c id)
    (h : (workerMachine ι J V E).Reachable c) (hrest : AtRest c) :
    c.shared.submittedJobs id = true := by
  have hentries := entries_of_reachable h
  obtain ⟨job, hthread⟩ := hid.returned
  by_contra hkey
  have hregistered : Registered id c.shared :=
    (hentries.submitted id job .returned hthread).mpr (by simp)
  obtain ⟨o, hmem⟩ | ⟨request, hmem⟩ | ⟨j, b, hj⟩ :=
    hentries.removed id hregistered (by simpa using hkey)
  · exact hid.notFinished o hmem
  · exact hid.notCancelled request hmem
  · cases hrest j _ hj

/-- An entry belongs to an unfinished job, unless the task was rejected or discarded. -/
theorem unfinished_of_mem_submittedJobs {id : ι} (h : (workerMachine ι J V E).Reachable c)
    (hrest : AtRest c) (hkey : c.shared.submittedJobs id = true)
    (hrejected : ∀ job, c.thread id ≠ .running (.submit job .rejected))
    (hdiscarded : ¬ Discarded id c.shared) : Unfinished c id := by
  have hentries := entries_of_reachable h
  obtain ⟨job, hmem⟩ := hentries.registered id hkey
  obtain ⟨p, hthread⟩ := ((jobLog_of_reachable h).2 id).submitted job hmem
  refine ⟨⟨job, ?_⟩, fun o hnotified => ?_, hdiscarded, fun request hanswered => ?_⟩
  · have hp := hrest id _ hthread
    cases p with
    | entry | registered => cases hp
    | returned => exact hthread
    | rejected => exact absurd hthread (hrejected job)
  · obtain ⟨j, hj⟩ := hentries.notified id o hnotified hkey
    cases hrest j _ hj
  · rw [(hentries.cancelled id (Or.inl ⟨request, hanswered⟩)).2] at hkey
    cases hkey

/-- **When the keys are exact.** With nothing in flight, they are exact and rejected submissions
have left nothing if and only if no entry belongs to a rejected or discarded task. -/
theorem keysExact_iff (h : (workerMachine ι J V E).Reachable c) (hrest : AtRest c) :
    KeysExact c ∧ RejectedClean c ↔ ∀ id, c.shared.submittedJobs id = true →
      (∀ job, c.thread id ≠ .running (.submit job .rejected)) ∧ ¬ Discarded id c.shared := by
  constructor
  · rintro ⟨hexact, -⟩ id hkey
    have hid := (hexact id).mp hkey
    obtain ⟨job, hthread⟩ := hid.returned
    refine ⟨fun job' hrejected => ?_, hid.notDiscarded⟩
    cases hthread.symm.trans hrejected
  · intro hclean
    refine ⟨fun id => ⟨fun hkey => ?_, fun hid => hid.mem_submittedJobs h hrest⟩,
      fun id job hthread => ?_⟩
    · exact unfinished_of_mem_submittedJobs h hrest hkey (hclean id hkey).1 (hclean id hkey).2
    · by_contra hkey
      exact (hclean id (by simpa using hkey)).1 job hthread

end AtRest

/-! ### Entries left behind -/

/-- The executor has its own reasons to reject the task. -/
def WorkerRemoteAnswer.isReject : WorkerRemoteAnswer ι V E → Bool
  | reject => true
  | _ => false

/-- The executor rejects a task whose entry is there, or `shutdownNow` discards one. -/
def Leaks (c : WorkerConfig ι J V E) (a : ι × WorkerRemoteAnswer ι V E) : Prop :=
  (∃ job, c.thread a.1 = .running (.submit job .registered) ∧
    (a.2.isReject = true ∨ c.shared.executorShutDown = true) ∧
    c.shared.submittedJobs a.1 = true) ∨
  (c.thread a.1 = .running (.shutdown .entry) ∧
    ∃ task ∈ c.shared.queue, c.shared.submittedJobs task.1 = true)

/-- What holds of the entries when none is left behind. -/
structure NoneLeft (c : WorkerConfig ι J V E) : Prop where
  rejected : RejectedClean c
  discarded : ∀ id job, c.thread id = .running (.submit job .returned) →
    Discarded id c.shared → c.shared.submittedJobs id = false

section Runs

variable {c : WorkerConfig ι J V E} {i : ι} {answer : WorkerRemoteAnswer ι V E}
  {w' : DefaultWorkerRemote ι J V E} {k k' : WorkerCall ι J V E}

omit [DecidableEq J] in
/-- Why a submission is rejected. -/
theorem rejects_of_submit {job : J} {w : DefaultWorkerRemote ι J V E}
    (h : DefaultWorkerRemote.submit i job answer w .registered = some (w', .rejected)) :
    answer.isReject = true ∨ w.executorShutDown = true := by
  simp only [DefaultWorkerRemote.submit] at h
  split at h
  · exact Or.inl rfl
  · split at h
    · exact Or.inr ‹_›
    · cases h

/-- An entry that is gone does not come back. -/
theorem WorkerStep.entry_gone (hs : WorkerStep i answer c.shared k w' k')
    (hk : c.thread i = .running k) {id : ι} {job : J} {p : SubmitPoint}
    (hthread : c.thread id = .running (.submit job p)) (hp : p ≠ .entry)
    (hkey : c.shared.submittedJobs id = false) : w'.submittedJobs id = false := by
  obtain hsame | ⟨rfl, -, job', rfl⟩ | ⟨hfalse, -⟩ := hs.entry id
  · exact hsame.trans hkey
  · obtain ⟨-, rfl⟩ := WorkerCall.submit.inj (Thread.running.inj (hthread.symm.trans hk))
    exact absurd rfl hp
  · exact hfalse

/-- A task is discarded by `shutdownNow`. -/
theorem WorkerStep.discarded {w : DefaultWorkerRemote ι J V E}
    (hs : WorkerStep i answer w k w' k') {id : ι} (h : Discarded id w') :
    Discarded id w ∨ (k = .shutdown .entry ∧ ∃ job, (id, job) ∈ w.queue) := by
  by_cases hqueue : ∃ job, (id, job) ∈ w.queue
  · obtain ⟨job, hmem⟩ := hqueue
    cases hs with
    | @take id' job' _ =>
      have hne : (id, job) ≠ (id', job') := by
        rintro heq
        obtain ⟨rfl, -⟩ := Prod.mk.inj heq
        exact h.1 (by simp)
      exact absurd ((List.mem_erase_of_ne hne).mpr hmem) (h.2 job)
    | enqueue => exact absurd (List.mem_append_left _ hmem) (h.2 job)
    | drain => exact Or.inr ⟨rfl, job, hmem⟩
    | _ => exact absurd hmem (h.2 job)
  · exact Or.inl ⟨fun hmem => h.1 (hs.log_mono hmem), fun job hmem => hqueue ⟨job, hmem⟩⟩

theorem NoneLeft.step (h : NoneLeft c) (hP : ¬ Leaks c (i, answer))
    (hk : c.thread i = .running k) (hn : k.next i answer c.shared = some (w', k')) :
    NoneLeft (c.after i w' k') := by
  have hs := workerStep_of_next hn
  refine ⟨fun id job hj => ?_, fun id job hj hdiscarded => ?_⟩
  · obtain ⟨rfl, hx⟩ | ⟨-, hj⟩ := thread_after hj
    · subst hx
      by_contra hkey
      cases hs with
      | @reject job =>
        obtain ⟨⟨w₁, p₁⟩, hsubmit, heq⟩ := Option.map_eq_some_iff.mp hn
        obtain ⟨rfl, hp⟩ := Prod.mk.inj heq
        obtain ⟨-, rfl⟩ := WorkerCall.submit.inj hp
        exact hP (Or.inl ⟨job, hk, rejects_of_submit hsubmit, by simpa using hkey⟩)
    · exact hs.entry_gone hk hj (by simp) (h.rejected id job hj)
  · obtain ⟨rfl, hx⟩ | ⟨-, hj⟩ := thread_after hj
    · subst hx
      cases hs with
      | @enqueue job _ => exact absurd (by simp) (hdiscarded.2 job)
    · obtain hdiscarded | ⟨rfl, job', hmem⟩ := hs.discarded hdiscarded
      · exact hs.entry_gone hk hj (by simp) (h.discarded id job hj hdiscarded)
      · have hkey : c.shared.submittedJobs id = false := by
          by_contra hkey
          exact hP (Or.inr ⟨hk, (id, job'), hmem, by simpa using hkey⟩)
        exact hs.entry_gone hk hj (by simp) hkey

theorem noneLeft_of_reachable
    (h : (workerMachine ι J V E).ReachableOf (fun c a => ¬ Leaks c a) c) : NoneLeft c := by
  refine workerConfig_invariant h (fun c hc => ?_) (fun c i o _ hc ho => ?_)
    fun c i e k w' k' _ hc hP hk hn => hc.step hP hk hn
  · refine ⟨fun id job hj => ?_, fun id job hj => ?_⟩
    all_goals
      obtain ⟨o, ho⟩ := hc.2 id
      cases ho.symm.trans hj
  · refine ⟨fun id job hj => ?_, fun id job hj => ?_⟩
    · obtain ⟨rfl, hx⟩ | ⟨-, hj⟩ := thread_after hj
      · cases o <;> cases hx
      · exact hc.rejected id job hj
    · obtain ⟨rfl, hx⟩ | ⟨-, hj⟩ := thread_after hj
      · cases o <;> cases hx
      · exact hc.discarded id job hj

/-- **The keys of `submitted_jobs` are exact** in every run in which no step leaves an entry
behind, and a submission that throws leaves nothing. -/
theorem keysExact_of_reachable
    (h : (workerMachine ι J V E).ReachableOf (fun c a => ¬ Leaks c a) c) :
    (AtRest c → KeysExact c) ∧ RejectedClean c := by
  have hnone := noneLeft_of_reachable h
  refine ⟨fun hrest => ((keysExact_iff h.reachable hrest).mpr fun id hkey => ?_).1, hnone.rejected⟩
  have hrejected : ∀ job, c.thread id ≠ .running (.submit job .rejected) := by
    intro job hthread
    rw [hnone.rejected id job hthread] at hkey
    cases hkey
  refine ⟨hrejected, fun hdiscarded => ?_⟩
  obtain ⟨job, hmem⟩ := (entries_of_reachable h.reachable).registered id hkey
  obtain ⟨p, hthread⟩ := ((jobLog_of_reachable h.reachable).2 id).submitted job hmem
  have hp := hrest id _ hthread
  cases p with
  | entry | registered => cases hp
  | returned =>
    rw [hnone.discarded id job hthread hdiscarded] at hkey
    cases hkey
  | rejected => exact hrejected job hthread

end Runs

/-! ### An entry that stays -/

section Example

/-- Whether a thread is at rest, or has not begun. -/
def threadAtRest : Thread (WorkerOperation (Fin 4) Unit) (WorkerCall (Fin 4) Unit Unit Unit) → Bool
  | .ready _ => true
  | .running k => k.atRest

theorem atRest_of_threads {c : WorkerConfig (Fin 4) Unit Unit Unit}
    (h : ∀ j, threadAtRest (c.thread j) = true) : AtRest c := by
  intro j k hk
  have hj := h j
  rw [hk] at hj
  exact hj

/-- The worker is shut down after it has accepted a job, and a job is submitted after the worker is
shut down. -/
theorem exists_left :
    (∃ c, (workerMachine (Fin 4) Unit Unit Unit).Reachable c ∧ AtRest c ∧ ¬ KeysExact c) ∧
      ∃ c, (workerMachine (Fin 4) Unit Unit Unit).Reachable c ∧ AtRest c ∧ ¬ RejectedClean c := by
  constructor
  · obtain ⟨c, hr, hc⟩ := (workerMachine (Fin 4) Unit Unit Unit).exists_run_of_exec submitCancelRun
      (submitSchedule ++ drainSchedule)
      (fun c => (∀ j, threadAtRest (c.thread j)) ∧ c.shared.submittedJobs 0 = true ∧
        .began 0 ∉ c.shared.log ∧ c.shared.queue = []) (by decide)
    obtain ⟨hrest, hkey, hbegan, hqueue⟩ := of_decide_eq_true hc
    refine ⟨c, ⟨_, submitCancelRun_init, hr⟩, atRest_of_threads hrest, fun h => ?_⟩
    exact ((h 0).mp hkey).notDiscarded ⟨hbegan, by simp [hqueue]⟩
  · obtain ⟨c, hr, hc⟩ := (workerMachine (Fin 4) Unit Unit Unit).exists_run_of_exec submitCancelRun
      (drainSchedule ++ submitSchedule)
      (fun c => (∀ j, threadAtRest (c.thread j)) ∧ c.shared.submittedJobs 0 = true ∧
        c.thread 0 = .running (.submit () .rejected)) (by decide)
    obtain ⟨hrest, hkey, hthread⟩ := of_decide_eq_true hc
    refine ⟨c, ⟨_, submitCancelRun_init, hr⟩, atRest_of_threads hrest, fun h => ?_⟩
    rw [h 0 () hthread] at hkey
    cases hkey

/-- The job has ended when the worker is shut down. -/
theorem keysExact_runSchedule :
    ∃ c : WorkerConfig (Fin 4) Unit Unit Unit, c.thread 3 = .running (.shutdown .finished) ∧
      .submitted 0 () ∈ c.shared.log ∧ KeysExact c ∧ RejectedClean c := by
  obtain ⟨c, hr, hc⟩ := (workerMachine (Fin 4) Unit Unit Unit).exists_runOf_of_execOf
    (fun c a => a.2.isReject = false ∧
      (c.thread a.1 = .running (.submit () .registered) → c.shared.executorShutDown = false) ∧
      (c.thread a.1 = .running (.shutdown .entry) → c.shared.queue = []))
    submitCancelRun (submitSchedule ++ runSchedule ++ [(2, .go)] ++ drainSchedule)
    (fun c => (∀ j, threadAtRest (c.thread j)) ∧
      c.thread 3 = .running (.shutdown .finished) ∧ .submitted 0 () ∈ c.shared.log) (by decide)
  obtain ⟨hrest, hthread, hmem⟩ := of_decide_eq_true hc
  have hreach : (workerMachine (Fin 4) Unit Unit Unit).ReachableOf (fun c a => ¬ Leaks c a) c := by
    refine ⟨_, submitCancelRun_init, hr.mono ?_⟩
    rintro d a ⟨hreject, hopen, hqueue⟩ (⟨job, hsubmit, hreason, -⟩ | ⟨hshutdown, task, hmem, -⟩)
    · rw [hreject, hopen hsubmit] at hreason
      simp at hreason
    · simp [hqueue hshutdown] at hmem
  obtain ⟨hexact, hrejected⟩ := keysExact_of_reachable hreach
  exact ⟨c, hthread, hmem, hexact (atRest_of_threads hrest), hrejected⟩

end Example

end Shabdiz
