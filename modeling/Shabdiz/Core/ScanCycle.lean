import Shabdiz.Concurrency.CompletableFuture
import Shabdiz.Concurrency.Interleaving
import Shabdiz.Core.AbstractApplicationManager

/-!
# A cycle of a concurrent scanner

`ConcurrentScanner.scan` takes the scan lock, submits one task for each descriptor of the network
to an executor, waits for the tasks, and cancels those that linger. Everything it does is inside
one `try` block, whose `catch` logs an exception and whose `finally` releases the lock; the
cancellation of lingering scans is in the middle of the block, so that an exception thrown before
it skips it.

Any number of threads call `scan` on one scanner, and any number of threads of the executor run
the tasks. What a hook, the executor or a scan does is the environment's answer: it goes on, or
throws. Waiting for a task ends when the task is done, or with a timeout or an interruption, both
of which end the wait for all of them. `submitted` is the list of the futures that a call has been
given by the executor; no code reads it.

## Main definitions

* `ScanTask`, `ConcurrentScanner` — a submitted task with its future, and what the threads share
* `ScanPoint`, `CycleCall.next` — the control points of a cycle, and one step of any call
* `cycleMachine` — the calls, in any order
* `LeavesNothing` — what holds when a cycle is over
* `RejectsLate` — a submission is refused while a task submitted before it is not done

## Main results

* `cycleStep_of_next` — what each step does
* `isLocked_iff` — one cycle at a time
* `leavesNothing_of_reachableOf` — a cycle leaves nothing behind if no submission is refused late
* `exists_pending_of_rejectsLate` — a submission that is refused late leaves a task behind
* `isStarted_of_run` — a task that is done and has not started never starts
-/

namespace Shabdiz

/-- A scan of one descriptor, as submitted to the executor: whether a thread has begun to run it,
and its future. -/
structure ScanTask where
  started : Bool
  future : CompletableFuture Unit Throwable
deriving DecidableEq

/-- What the threads share: the lock and the list of a scanner, and every task that the executor
has accepted. A future is named by the position of its task. -/
structure ConcurrentScanner (ι : Type) where
  /-- The thread that holds `scan_lock`. -/
  scanLock : Option ι
  scheduledScans : List Nat
  tasks : List ScanTask

/-- The control points of `scan`. -/
inductive ScanPoint where
  | lock
  | beforeScan
  | prepareForScan
  | scheduleConcurrentScans
  /-- Waiting for the future at a position of `scheduled_scans`. -/
  | awaitScanCompletion (k : Nat)
  /-- Cancelling the future at a position of `scheduled_scans`. -/
  | cancelLingeringScans (k : Nat)
  | afterScan
  /-- The `finally` block, with what is being thrown. -/
  | unlock (thrown : Option Throwable)
  | returned (thrown : Option Throwable)
deriving DecidableEq

/-- The control points of a thread of the executor that is given a task. -/
inductive TaskPoint where
  | waiting
  | running
  | ended
deriving DecidableEq

/-- What a thread can be given to do: a cycle of the scanner, or one of its tasks. -/
inductive CycleOperation where
  | scan
  | run (task : Nat)
deriving DecidableEq

/-- A call under way. -/
inductive CycleCall where
  | scan (point : ScanPoint) (submitted : List Nat)
  | run (task : Nat) (point : TaskPoint)
deriving DecidableEq

/-- What the environment decides about a step. -/
inductive CycleAnswer where
  /-- What is called returns: a hook, a task, or a submission for one more descriptor. -/
  | returns
  /-- The network has no more descriptors. -/
  | exhausted
  | timeout
  | interrupted
  | throws (t : Throwable)
deriving DecidableEq

/-- Where the call of an operation begins. -/
def CycleOperation.start : CycleOperation → CycleCall
  | scan => .scan .lock []
  | run task => .run task .waiting

/-- The operation that a call carries out. -/
def CycleCall.operation : CycleCall → CycleOperation
  | scan _ _ => .scan
  | run task _ => .run task

/-- What is still thrown after the `catch` block. -/
def Throwable.uncaught (t : Throwable) : Option Throwable := if t.isException then none else some t

namespace ConcurrentScanner

variable {ι : Type}

/-- The future of the task is done. -/
def isDone (s : ConcurrentScanner ι) (task : Nat) : Bool :=
  s.tasks[task]?.any fun t => t.future.isDone

/-- Whether a thread has begun to run the task. -/
def isStarted (s : ConcurrentScanner ι) (task : Nat) : Bool :=
  s.tasks[task]?.any fun t => t.started

/-- `executor.submit`, and the future added to `scheduled_scans`. -/
def scheduleScan (s : ConcurrentScanner ι) : ConcurrentScanner ι :=
  { s with
    tasks := s.tasks ++ [⟨false, .pending⟩]
    scheduledScans := s.scheduledScans ++ [s.tasks.length] }

/-- Cancel the future of the task, which does not stop a task that has begun. -/
def cancel (task : Nat) (s : ConcurrentScanner ι) : ConcurrentScanner ι :=
  { s with tasks := s.tasks.modify task fun t => { t with future := t.future.cancel } }

/-- A thread begins to run a task. -/
def begin (task : Nat) (s : ConcurrentScanner ι) : ConcurrentScanner ι :=
  { s with tasks := s.tasks.modify task fun t => { t with started := true } }

/-- The task has been run. -/
def finish (task : Nat) (outcome : Outcome Unit Throwable) (s : ConcurrentScanner ι) :
    ConcurrentScanner ι :=
  { s with tasks := s.tasks.modify task fun t => { t with future := t.future.settle outcome } }

end ConcurrentScanner

/-- One step of `scan` by thread `i`. -/
def ScanPoint.next {ι : Type} (i : ι) (e : CycleAnswer) (s : ConcurrentScanner ι)
    (submitted : List Nat) : ScanPoint → Option (ConcurrentScanner ι × ScanPoint × List Nat)
  | lock =>
    if s.scanLock.isNone then some ({ s with scanLock := some i }, .beforeScan, submitted) else none
  | beforeScan =>
    match e with
    | .returns => some (s, .prepareForScan, submitted)
    | .throws t => some (s, .unlock t.uncaught, submitted)
    | _ => none
  | prepareForScan =>
    some ({ s with scheduledScans := [] }, .scheduleConcurrentScans, submitted)
  | scheduleConcurrentScans =>
    match e with
    | .returns => some (s.scheduleScan, .scheduleConcurrentScans, submitted ++ [s.tasks.length])
    | .exhausted => some (s, .awaitScanCompletion 0, submitted)
    | .throws t => some (s, .unlock t.uncaught, submitted)
    | _ => none
  | awaitScanCompletion k =>
    match s.scheduledScans[k]?, e with
    | none, _ => some (s, .cancelLingeringScans 0, submitted)
    | some _, .timeout | some _, .interrupted => some (s, .cancelLingeringScans 0, submitted)
    -- The future is done: its result, a cancellation and a failure are all passed over.
    | some task, .returns =>
      if s.isDone task then some (s, .awaitScanCompletion (k + 1), submitted) else none
    | some _, _ => none
  | cancelLingeringScans k =>
    match s.scheduledScans[k]? with
    | none => some (s, .afterScan, submitted)
    | some task => some (s.cancel task, .cancelLingeringScans (k + 1), submitted)
  | afterScan =>
    match e with
    | .returns => some (s, .unlock none, submitted)
    | .throws t => some (s, .unlock t.uncaught, submitted)
    | _ => none
  | unlock thrown => some ({ s with scanLock := none }, .returned thrown, submitted)
  | returned _ => none

/-- One step of a thread of the executor: `FutureTask.run` does nothing for a task that is done or
that another thread has begun. -/
def TaskPoint.next {ι : Type} (task : Nat) (e : CycleAnswer) (s : ConcurrentScanner ι) :
    TaskPoint → Option (ConcurrentScanner ι × TaskPoint)
  | waiting =>
    if s.tasks.length ≤ task then none
    else if s.isDone task || s.isStarted task then some (s, .ended)
    else some (s.begin task, .running)
  | running =>
    match e with
    | .returns => some (s.finish task (.completed ()), .ended)
    | .throws t => some (s.finish task (.completedExceptionally (.exception t)), .ended)
    | _ => none
  | ended => none

/-- One step of a call. -/
def CycleCall.next {ι : Type} (i : ι) (e : CycleAnswer) (s : ConcurrentScanner ι) :
    CycleCall → Option (ConcurrentScanner ι × CycleCall)
  | scan point submitted =>
    (point.next i e s submitted).map fun r => (r.1, .scan r.2.1 r.2.2)
  | run task point => (point.next task e s).map fun r => (r.1, .run task r.2)

theorem CycleCall.operation_next {ι : Type} {i : ι} {e : CycleAnswer}
    {s s' : ConcurrentScanner ι} {k k' : CycleCall} (h : k.next i e s = some (s', k')) :
    k'.operation = k.operation := by
  cases k <;> obtain ⟨r, -, hr⟩ := Option.map_eq_some_iff.mp h <;>
    obtain rfl := congrArg Prod.snd hr <;> rfl

/-- The calls on one scanner. -/
def cycleCalls (ι : Type) :
    Interleaving ι (ConcurrentScanner ι) CycleOperation CycleCall CycleAnswer where
  initial := ⟨none, [], []⟩
  start := CycleOperation.start
  next i e s k := k.next i e s
  op := CycleCall.operation
  op_start o := by cases o <;> rfl
  op_next := CycleCall.operation_next

/-- The scanner, and the calls of the threads. -/
abbrev CycleConfig (ι : Type) := Config ι (ConcurrentScanner ι) CycleOperation CycleCall

/-- The calls, in any order. -/
def cycleMachine (ι : Type) [DecidableEq ι] : Machine (CycleConfig ι) (ι × CycleAnswer) :=
  (cycleCalls ι).machine

/-! ### What a step does -/

/-- **What each step does.** Thread `i` makes a step from `s` with the answer `e`. -/
inductive CycleStep {ι : Type} (i : ι) (e : CycleAnswer) (s : ConcurrentScanner ι) :
    CycleCall → ConcurrentScanner ι → CycleCall → Prop where
  | lock {sub : List Nat} (h : s.scanLock = none) :
    CycleStep i e s (.scan .lock sub) { s with scanLock := some i } (.scan .beforeScan sub)
  | beforeScan {sub : List Nat} :
    CycleStep i e s (.scan .beforeScan sub) s (.scan .prepareForScan sub)
  | beforeScanThrows {sub : List Nat} (t : Throwable) :
    CycleStep i e s (.scan .beforeScan sub) s (.scan (.unlock t.uncaught) sub)
  | prepareForScan {sub : List Nat} :
    CycleStep i e s (.scan .prepareForScan sub) { s with scheduledScans := [] }
      (.scan .scheduleConcurrentScans sub)
  | submit {sub : List Nat} :
    CycleStep i e s (.scan .scheduleConcurrentScans sub) s.scheduleScan
      (.scan .scheduleConcurrentScans (sub ++ [s.tasks.length]))
  | exhausted {sub : List Nat} :
    CycleStep i e s (.scan .scheduleConcurrentScans sub) s (.scan (.awaitScanCompletion 0) sub)
  | refused {sub : List Nat} (t : Throwable) (he : e = .throws t) :
    CycleStep i e s (.scan .scheduleConcurrentScans sub) s (.scan (.unlock t.uncaught) sub)
  | awaited {sub : List Nat} {k : Nat} :
    CycleStep i e s (.scan (.awaitScanCompletion k) sub) s
      (.scan (.awaitScanCompletion (k + 1)) sub)
  | awaitEnds {sub : List Nat} {k : Nat} :
    CycleStep i e s (.scan (.awaitScanCompletion k) sub) s (.scan (.cancelLingeringScans 0) sub)
  | cancel {sub : List Nat} {k task : Nat} (h : s.scheduledScans[k]? = some task) :
    CycleStep i e s (.scan (.cancelLingeringScans k) sub) (s.cancel task)
      (.scan (.cancelLingeringScans (k + 1)) sub)
  | cancelEnds {sub : List Nat} {k : Nat} (h : s.scheduledScans[k]? = none) :
    CycleStep i e s (.scan (.cancelLingeringScans k) sub) s (.scan .afterScan sub)
  | afterScan {sub : List Nat} :
    CycleStep i e s (.scan .afterScan sub) s (.scan (.unlock none) sub)
  | afterScanThrows {sub : List Nat} (t : Throwable) :
    CycleStep i e s (.scan .afterScan sub) s (.scan (.unlock t.uncaught) sub)
  | unlock {sub : List Nat} {thrown : Option Throwable} :
    CycleStep i e s (.scan (.unlock thrown) sub) { s with scanLock := none }
      (.scan (.returned thrown) sub)
  | skip {task : Nat} : CycleStep i e s (.run task .waiting) s (.run task .ended)
  | begin {task : Nat} (h : s.isDone task = false) :
    CycleStep i e s (.run task .waiting) (s.begin task) (.run task .running)
  | finish {task : Nat} (outcome : Outcome Unit Throwable) :
    CycleStep i e s (.run task .running) (s.finish task outcome) (.run task .ended)

/-- The list of what steps do is complete. -/
theorem cycleStep_of_next {ι : Type} {i : ι} {e : CycleAnswer} {s s' : ConcurrentScanner ι}
    {k k' : CycleCall} (h : k.next i e s = some (s', k')) : CycleStep i e s k s' k' := by
  cases k with
  | scan point sub =>
    obtain ⟨r, hr, heq⟩ := Option.map_eq_some_iff.mp h
    obtain ⟨rfl, rfl⟩ := Prod.mk.inj heq
    cases point with
    | lock =>
      simp only [ScanPoint.next] at hr
      split at hr
      · obtain rfl := Option.some.inj hr
        exact .lock (Option.isNone_iff_eq_none.mp ‹_›)
      · cases hr
    | beforeScan =>
      simp only [ScanPoint.next] at hr
      split at hr <;> cases hr
      · exact .beforeScan
      · exact .beforeScanThrows _
    | prepareForScan =>
      obtain rfl := Option.some.inj hr
      exact .prepareForScan
    | scheduleConcurrentScans =>
      simp only [ScanPoint.next] at hr
      split at hr <;> cases hr
      · exact .submit
      · exact .exhausted
      · exact .refused _ rfl
    | awaitScanCompletion k =>
      simp only [ScanPoint.next] at hr
      split at hr
      · cases hr
        exact .awaitEnds
      · cases hr
        exact .awaitEnds
      · cases hr
        exact .awaitEnds
      · split at hr <;> cases hr
        exact .awaited
      · cases hr
    | cancelLingeringScans k =>
      simp only [ScanPoint.next] at hr
      split at hr <;> cases hr
      · exact .cancelEnds ‹_›
      · exact .cancel ‹_›
    | afterScan =>
      simp only [ScanPoint.next] at hr
      split at hr <;> cases hr
      · exact .afterScan
      · exact .afterScanThrows _
    | unlock thrown =>
      obtain rfl := Option.some.inj hr
      exact .unlock
    | returned thrown => cases hr
  | run task point =>
    obtain ⟨r, hr, heq⟩ := Option.map_eq_some_iff.mp h
    obtain ⟨rfl, rfl⟩ := Prod.mk.inj heq
    cases point with
    | waiting =>
      simp only [TaskPoint.next] at hr
      split at hr
      · cases hr
      · split at hr <;> cases hr
        · exact .skip
        · exact .begin (by simp_all)
    | running =>
      simp only [TaskPoint.next] at hr
      split at hr <;> cases hr
      · exact .finish _
      · exact .finish _
    | ended => cases hr

/-! ### Tasks -/

section Tasks

variable {ι : Type} {s s' : ConcurrentScanner ι} {task : Nat} {i : ι} {e : CycleAnswer}
  {k k' : CycleCall}

theorem ConcurrentScanner.isDone_iff :
    s.isDone task = true ↔ ∃ t, s.tasks[task]? = some t ∧ t.future.isDone = true := by
  simp [isDone, Option.any_eq_true]

theorem ConcurrentScanner.isDone_cancel (h : task < s.tasks.length) :
    (s.cancel task).isDone task = true := by
  refine isDone_iff.mpr ⟨{ s.tasks[task] with future := s.tasks[task].future.cancel }, ?_,
    CompletableFuture.isDone_settle⟩
  simp [cancel, h]

/-- What is done to the future of a task that is done has no effect. -/
theorem getElem?_modify_of_isDone {tasks : List ScanTask} {t : ScanTask}
    {f : CompletableFuture Unit Throwable → CompletableFuture Unit Throwable} (n : Nat)
    (ht : tasks[task]? = some t) (hf : f t.future = t.future) :
    (tasks.modify n fun t => { t with future := f t.future })[task]? = some t := by
  rw [List.getElem?_modify, ht]
  by_cases hn : n = task
  · simp [hn, hf]
  · simp [hn]

/-- **A task that is done does not change.** -/
theorem CycleStep.getElem?_tasks (h : CycleStep i e s k s' k') {t : ScanTask}
    (ht : s.tasks[task]? = some t) (hd : t.future.isDone = true) : s'.tasks[task]? = some t := by
  cases h with
  | submit =>
    have hlt := (List.getElem?_eq_some_iff.mp ht).1
    simpa [ConcurrentScanner.scheduleScan, List.getElem?_append_left hlt] using ht
  | cancel => exact getElem?_modify_of_isDone _ ht (CompletableFuture.settle_of_isDone hd)
  | finish => exact getElem?_modify_of_isDone _ ht (CompletableFuture.settle_of_isDone hd)
  | @begin task' hnot =>
    have hne : task' ≠ task := by
      rintro rfl
      rw [ConcurrentScanner.isDone_iff.mpr ⟨t, ht, hd⟩] at hnot
      cases hnot
    simpa [ConcurrentScanner.begin, List.getElem?_modify, hne] using ht
  | _ => exact ht

theorem CycleStep.isDone (h : CycleStep i e s k s' k') (hd : s.isDone task = true) :
    s'.isDone task = true := by
  obtain ⟨t, ht, hdone⟩ := ConcurrentScanner.isDone_iff.mp hd
  exact ConcurrentScanner.isDone_iff.mpr ⟨t, h.getElem?_tasks ht hdone, hdone⟩

theorem CycleStep.length_tasks (h : CycleStep i e s k s' k') :
    s.tasks.length ≤ s'.tasks.length := by
  cases h <;> simp [ConcurrentScanner.scheduleScan, ConcurrentScanner.cancel,
    ConcurrentScanner.begin, ConcurrentScanner.finish]

end Tasks

/-! ### The lock -/

/-- Whether a call holds the scan lock. -/
def CycleCall.isLocked : CycleCall → Bool
  | scan .lock _ | scan (.returned _) _ => false
  | scan _ _ => true
  | run _ _ => false

/-- Whether a thread holds the scan lock. -/
def isLocked : Thread CycleOperation CycleCall → Bool
  | .ready _ => false
  | .running k => k.isLocked

section Lock

variable {ι : Type} {s s' : ConcurrentScanner ι} {i : ι} {e : CycleAnswer} {k k' : CycleCall}

/-- The list of scheduled scans is changed by the thread that holds the lock only. -/
theorem CycleStep.scheduledScans (h : CycleStep i e s k s' k') (hk : k.isLocked = false) :
    s'.scheduledScans = s.scheduledScans := by
  cases h <;> first | rfl | cases hk

/-- A step takes the lock, releases it, or leaves it alone. -/
theorem CycleStep.scanLock (h : CycleStep i e s k s' k') :
    (s.scanLock = none ∧ k.isLocked = false ∧ s'.scanLock = some i ∧ k'.isLocked = true) ∨
      (k.isLocked = true ∧ s'.scanLock = none ∧ k'.isLocked = false) ∨
      (s'.scanLock = s.scanLock ∧ k'.isLocked = k.isLocked) := by
  cases h with
  | lock h => exact .inl ⟨h, rfl, rfl, rfl⟩
  | unlock => exact .inr (.inl ⟨rfl, rfl, rfl⟩)
  | _ => exact .inr (.inr ⟨rfl, rfl⟩)

variable [DecidableEq ι]

/-- **One cycle at a time.** A thread is inside a cycle exactly when it holds the lock. -/
theorem isLocked_iff {c : CycleConfig ι} (h : (cycleMachine ι).Reachable c) (i : ι) :
    isLocked (c.thread i) = true ↔ c.shared.scanLock = some i := by
  refine (Interleaving.owickiGries_next (L := cycleCalls ι) (G := fun _ => True)
    (J := fun i s t => isLocked t = true ↔ s.scanLock = some i) h ?_ ?_ ?_ ?_).2 i
  · exact ⟨trivial, fun i o => by simp [isLocked, cycleCalls]⟩
  · intro c i e o _ hc _ ho
    have hi := hc.2 i
    rw [ho] at hi
    cases o <;> exact hi
  · intro c i e k s' k' _ hc _ hk hn
    have hi := hc.2 i
    rw [hk] at hi
    refine ⟨trivial, ?_⟩
    obtain ⟨hfree, hout, hlock, hin⟩ | ⟨hin, hlock, hout⟩ | ⟨hlock, hsame⟩ :=
      (cycleStep_of_next hn).scanLock
    · simp [isLocked, hin, hlock]
    · simp [isLocked, hout, hlock]
    · simpa [isLocked, hsame, hlock] using hi
  · intro c i e k s' k' j _ hc _ hk hn hj
    have hi := hc.2 i
    have hjc := hc.2 j
    rw [hk] at hi
    obtain ⟨hfree, hout, hlock, hin⟩ | ⟨hin, hlock, hout⟩ | ⟨hlock, hsame⟩ :=
      (cycleStep_of_next hn).scanLock
    · rw [hjc, hlock, hfree]
      simp [hj.symm]
    · rw [hjc, hlock, hi.mp hin]
      simp [hj.symm]
    · rw [hjc, hlock]

end Lock

/-! ### What a cycle leaves behind -/

namespace ConcurrentScanner

variable {ι : Type}

/-- Every one of these futures is in `scheduled_scans`, which has no others. -/
def Stores (s : ConcurrentScanner ι) (submitted : List Nat) : Prop :=
  s.scheduledScans = submitted ∧ ∀ task ∈ submitted, task < s.tasks.length

/-- The futures of all these tasks are done. -/
def AllDone (s : ConcurrentScanner ι) (tasks : List Nat) : Prop :=
  ∀ task ∈ tasks, s.isDone task = true

end ConcurrentScanner

/-- What is thrown to the caller of `scan` is no `Exception`. -/
def Throwable.Escapes (thrown : Option Throwable) : Prop :=
  ∀ t, thrown = some t → t.isException = false

theorem Throwable.escapes_uncaught (t : Throwable) : Escapes t.uncaught := by
  intro u hu
  simp only [uncaught] at hu
  split at hu
  · cases hu
  · obtain rfl := Option.some.inj hu
    simpa using ‹¬ t.isException = true›

/-- What is known of a call on its way through a cycle: what it was given is stored, and then
closed from the front. -/
def CycleInvariant {ι : Type} (s : ConcurrentScanner ι) : CycleCall → Prop
  | .scan .lock submitted => submitted = []
  | .scan .beforeScan submitted => submitted = []
  | .scan .prepareForScan submitted => submitted = []
  | .scan .scheduleConcurrentScans submitted => s.Stores submitted
  | .scan (.awaitScanCompletion _) submitted => s.Stores submitted
  | .scan (.cancelLingeringScans k) submitted =>
    s.Stores submitted ∧ s.AllDone (submitted.take k)
  | .scan .afterScan submitted => s.AllDone submitted
  | .scan (.unlock thrown) submitted => s.AllDone submitted ∧ Throwable.Escapes thrown
  | .scan (.returned thrown) submitted => s.AllDone submitted ∧ Throwable.Escapes thrown
  | .run _ _ => True

section Cycle

variable {ι : Type} {s s' : ConcurrentScanner ι} {i : ι} {e : CycleAnswer} {k k' : CycleCall}

/-- A refused submission leaves behind what was submitted before it, unless that is done. -/
def RefusesLate (s : ConcurrentScanner ι) (e : CycleAnswer) (k : CycleCall) : Prop :=
  ∃ submitted t, k = .scan .scheduleConcurrentScans submitted ∧ e = .throws t ∧
    ¬ s.AllDone submitted

/-- What a call knows stays so while others move, if the list of scheduled scans is its own. -/
theorem CycleInvariant.mono (h : CycleInvariant s k)
    (hd : ∀ task, s.isDone task = true → s'.isDone task = true)
    (hl : s.tasks.length ≤ s'.tasks.length)
    (hs : k.isLocked = true → s'.scheduledScans = s.scheduledScans) : CycleInvariant s' k := by
  have hall {tasks : List Nat} (hdone : s.AllDone tasks) : s'.AllDone tasks :=
    fun task htask => hd task (hdone task htask)
  have hstores {submitted : List Nat} (heq : s'.scheduledScans = s.scheduledScans)
      (hst : s.Stores submitted) : s'.Stores submitted :=
    ⟨heq.trans hst.1, fun task htask => Nat.lt_of_lt_of_le (hst.2 task htask) hl⟩
  cases k with
  | run task point => trivial
  | scan point submitted =>
    cases point with
    | lock | beforeScan | prepareForScan => exact h
    | scheduleConcurrentScans | awaitScanCompletion => exact hstores (hs rfl) h
    | cancelLingeringScans => exact ⟨hstores (hs rfl) h.1, hall h.2⟩
    | afterScan => exact hall h
    | unlock | returned => exact ⟨hall h.1, h.2⟩

/-- **One step of a cycle**, unless it refuses a submission too late. -/
theorem CycleInvariant.step (h : CycleInvariant s k) (hs : CycleStep i e s k s' k')
    (hP : ¬ RefusesLate s e k) : CycleInvariant s' k' := by
  cases hs with
  | lock | beforeScan => exact h
  | beforeScanThrows t =>
    obtain rfl : _ = [] := h
    exact ⟨fun task htask => (List.not_mem_nil htask).elim, t.escapes_uncaught⟩
  | prepareForScan =>
    obtain rfl : _ = [] := h
    exact ⟨rfl, fun task htask => (List.not_mem_nil htask).elim⟩
  | @submit submitted =>
    refine ⟨congrArg (· ++ [s.tasks.length]) h.1, fun task htask => ?_⟩
    simp only [ConcurrentScanner.scheduleScan, List.length_append, List.length_singleton]
    obtain hmem | hnew := List.mem_append.mp htask
    · exact Nat.lt_succ_of_lt (h.2 task hmem)
    · obtain rfl := List.mem_singleton.mp hnew
      exact Nat.lt_succ_self _
  | exhausted | awaited => exact h
  | refused t he =>
    refine ⟨?_, t.escapes_uncaught⟩
    by_contra hnot
    exact hP ⟨_, t, rfl, he, hnot⟩
  | awaitEnds => exact ⟨h, fun task htask => by simp at htask⟩
  | @cancel submitted k task htask =>
    -- The futures before position `k` are closed; the one at `k` is cancelled now.
    obtain ⟨⟨hst, hlt⟩, hclosed⟩ := h
    rw [hst] at htask
    have hmem : task ∈ submitted := List.mem_of_getElem? htask
    refine ⟨⟨hst, fun task' h' => ?_⟩, fun task' h' => ?_⟩
    · simpa [ConcurrentScanner.cancel] using hlt task' h'
    · rw [List.take_add_one, htask] at h'
      obtain hold | hnew := List.mem_append.mp h'
      · have hcancel : CycleStep i e s (.scan (.cancelLingeringScans k) submitted) (s.cancel task)
            (.scan (.cancelLingeringScans (k + 1)) submitted) :=
          .cancel (by rw [hst, htask])
        exact hcancel.isDone (hclosed task' hold)
      · obtain rfl : task' = task := by simpa using hnew
        exact ConcurrentScanner.isDone_cancel (hlt _ hmem)
  | @cancelEnds submitted k hnone =>
    obtain ⟨⟨hst, -⟩, hclosed⟩ := h
    rw [hst, List.getElem?_eq_none_iff] at hnone
    rwa [List.take_of_length_le hnone] at hclosed
  | afterScan => exact ⟨h, fun t ht => by cases ht⟩
  | afterScanThrows t => exact ⟨h, t.escapes_uncaught⟩
  | unlock => exact h
  | skip | begin | finish => trivial

variable [DecidableEq ι]

/-- A step of thread `i` in which the executor refuses a submission while a task that it accepted
from `i` before, in the same cycle, is not done. -/
def RejectsLate (c : CycleConfig ι) (a : ι × CycleAnswer) : Prop :=
  ∃ k, c.thread a.1 = .running k ∧ RefusesLate c.shared a.2 k

/-- What holds when a cycle is over: every future that was submitted in it is done or cancelled,
the lock is released, no `Exception` is thrown to the caller, and a task that has not started
never starts. -/
def LeavesNothing (c : CycleConfig ι) : Prop :=
  ∀ i submitted thrown, c.thread i = .running (.scan (.returned thrown) submitted) →
    c.shared.AllDone submitted ∧ c.shared.scanLock ≠ some i ∧ Throwable.Escapes thrown ∧
      ∀ task ∈ submitted, c.shared.isStarted task = false →
        ∀ c', (cycleMachine ι).Run c c' → c'.shared.isStarted task = false

/-- The invariant of every call, in a run in which no submission is refused too late. -/
theorem cycleInvariant_of_reachableOf {c : CycleConfig ι}
    (h : (cycleMachine ι).ReachableOf (fun c a => ¬ RejectsLate c a) c) {i : ι} {k : CycleCall}
    (hk : c.thread i = .running k) : CycleInvariant c.shared k := by
  have hinv := (Interleaving.owickiGries_next (L := cycleCalls ι) (G := fun _ => True)
    (J := fun _ s t => ∀ k, t = .running k → CycleInvariant s k) h ?_ ?_ ?_ ?_).2 i k hk
  · exact hinv
  · exact ⟨trivial, fun i o k hk => by cases hk⟩
  · rintro c i e o - - - - k hk
    cases hk
    cases o <;> trivial
  · intro c i e k s' k' _ hc hP hk hn
    refine ⟨trivial, ?_⟩
    rintro _ ⟨rfl⟩
    exact (hc.2 i k hk).step (cycleStep_of_next hn) fun hlate => hP ⟨k, hk, hlate⟩
  · intro c i e k s' k' j hr hc _ hk hn hj l hl
    have hstep := cycleStep_of_next hn
    refine (hc.2 j l hl).mono (fun task => hstep.isDone) hstep.length_tasks fun hlocked => ?_
    -- Only one of the two threads is inside its cycle.
    refine hstep.scheduledScans (Bool.eq_false_iff.mpr fun hin => hj ?_)
    have hmine := (isLocked_iff hr.reachable j).mp (by rw [hl]; exact hlocked)
    have hother := (isLocked_iff hr.reachable i).mp (by rw [hk]; exact hin)
    exact Option.some.inj (hmine.symm.trans hother)

/-- A task that is done does not change in any run. -/
theorem getElem?_tasks_of_run {c c' : CycleConfig ι} (h : (cycleMachine ι).Run c c') {task : Nat}
    {t : ScanTask} (ht : c.shared.tasks[task]? = some t) (hd : t.future.isDone = true) :
    c'.shared.tasks[task]? = some t := by
  refine h.invariant (I := fun d => d.shared.tasks[task]? = some t) ht ?_
  rintro d ⟨j, e⟩ d' - hd' - hs
  obtain ⟨o, ho, rfl⟩ | ⟨k, s', k', hk, hn, rfl⟩ := Interleaving.step_cases hs
  · exact hd'
  · exact (cycleStep_of_next hn).getElem?_tasks hd' hd

/-- A task that is done and has not started never starts. -/
theorem isStarted_of_run {c c' : CycleConfig ι} (h : (cycleMachine ι).Run c c') {task : Nat}
    (hd : c.shared.isDone task = true) : c'.shared.isStarted task = c.shared.isStarted task := by
  obtain ⟨t, ht, hdone⟩ := ConcurrentScanner.isDone_iff.mp hd
  simp [ConcurrentScanner.isStarted, ht, getElem?_tasks_of_run h ht hdone]

/-- **A finished cycle leaves nothing behind**, in every run in which no submission is refused
while a task submitted before it in the same cycle is not done. -/
theorem leavesNothing_of_reachableOf {c : CycleConfig ι}
    (h : (cycleMachine ι).ReachableOf (fun c a => ¬ RejectsLate c a) c) : LeavesNothing c := by
  intro i submitted thrown hi
  obtain ⟨hdone, hescapes⟩ : CycleInvariant _ _ := cycleInvariant_of_reachableOf h hi
  refine ⟨hdone, fun hlock => ?_, hescapes, fun task htask hstarted c' hrun => ?_⟩
  · have hlocked := (isLocked_iff h.reachable i).mpr hlock
    rw [hi] at hlocked
    cases hlocked
  · rw [isStarted_of_run hrun (hdone task htask), hstarted]

/-- Two threads: one calls `scan`, and the other is a thread of the executor that is to run the
first task. -/
def oneScan : CycleConfig Bool :=
  ⟨⟨none, [], []⟩, fun i => .ready (if i then .run 0 else .scan)⟩

theorem init_oneScan : (cycleMachine Bool).init oneScan := ⟨rfl, fun _ => ⟨_, rfl⟩⟩

/-- A cycle whose only scan has not started when the timeout elapses: it is cancelled. -/
theorem leavesNothing_timedOut :
    ∃ c, c.thread false = .running (.scan (.returned none) [0]) ∧ LeavesNothing c := by
  obtain ⟨c, hrun, hc⟩ := (cycleMachine Bool).exists_runOf_of_execOf
    (fun _ a => a.2 = .returns ∨ a.2 = .exhausted ∨ a.2 = .timeout) oneScan
    [(false, .returns), (false, .returns), (false, .returns), (false, .returns),
      (false, .returns), (false, .exhausted), (false, .timeout), (false, .returns),
      (false, .returns), (false, .returns), (false, .returns)]
    (fun c => c.thread false = .running (.scan (.returned none) [0])) (by decide)
  refine ⟨c, of_decide_eq_true hc, leavesNothing_of_reachableOf ⟨oneScan, init_oneScan, ?_⟩⟩
  refine hrun.mono fun c a ha => ?_
  rintro ⟨k, -, submitted, t, -, he, -⟩
  simp [he] at ha

/-- **A submission that is refused late leaves a task behind**: the thread gives up its cycle, and
in two steps of its own it has returned with the task not done. -/
theorem exists_pending_of_rejectsLate {c : CycleConfig ι} {a : ι × CycleAnswer}
    (h : RejectsLate c a) : ∃ c', (cycleMachine ι).Run c c' ∧ ¬ LeavesNothing c' := by
  obtain ⟨i, e⟩ := a
  obtain ⟨k, hk, submitted, t, rfl, rfl, hnot⟩ := h
  have hrefused : (cycleCalls ι).next i (.throws t) c.shared
      (.scan .scheduleConcurrentScans submitted) =
        some (c.shared, .scan (.unlock t.uncaught) submitted) := rfl
  have hunlock : (cycleCalls ι).next i .returns c.shared (.scan (.unlock t.uncaught) submitted) =
      some ({ c.shared with scanLock := none }, .scan (.returned t.uncaught) submitted) := rfl
  refine ⟨_, Interleaving.run_of_alone (.tail (.single ⟨_, hrefused⟩) ⟨_, hunlock⟩) hk,
    fun hnothing => hnot ?_⟩
  obtain ⟨hdone, -⟩ := hnothing i submitted t.uncaught (Function.update_self ..)
  exact hdone

/-- The executor accepts the first descriptor's scan and rejects the second one's. The cycle is
over when a thread of the executor begins to run the first scan. -/
theorem not_leavesNothing_oneScan :
    ¬ ∀ c, (cycleMachine Bool).Reachable c → LeavesNothing c := by
  intro hall
  obtain ⟨c, c', hrun, hrun', hc⟩ := (cycleMachine Bool).exists_run_run_of_exec oneScan
    [(false, .returns), (false, .returns), (false, .returns), (false, .returns),
      (false, .returns), (false, .throws (.thrown .exception)), (false, .returns)]
    [(true, .returns), (true, .returns)]
    (fun c c' => c.thread false = .running (.scan (.returned none) [0]) ∧
      c.shared.isStarted 0 = false ∧ c'.shared.isStarted 0 = true) (by decide)
  obtain ⟨hthread, hbefore, hafter⟩ := of_decide_eq_true hc
  obtain ⟨-, -, -, hnever⟩ := hall c ⟨oneScan, init_oneScan, hrun⟩ false [0] none hthread
  simp [hnever 0 (by simp) hbefore c' hrun'] at hafter

end Cycle

end Shabdiz
