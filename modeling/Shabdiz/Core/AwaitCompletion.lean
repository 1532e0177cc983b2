import Shabdiz.Concurrency.CompletableFuture
import Shabdiz.Core.ApplicationNetwork

/-!
# One task for each descriptor, and waiting for all of them

`deployAll`, `killAll` and `awaitAnyOfStates` of a network submit one task for each descriptor and
then `awaitCompletion`: wait for a future that is completed when *all* tasks are, and in the end
cancel every one of them. "If one deployment task fails all deployment tasks are cancelled" is what
they document; but the wait does not end at the first failure, and the cancellation comes after the
wait. A task that never ends keeps the failure of another from the caller.

## Main definitions

* `Task`, `TaskGroup` — the tasks of one call, with their futures, over the network they act on
* `taskGroupMachine` — the call, the tasks, and everything else that happens on the network
* `TaskGroupStep` — what each action does
* `deployAll`, `killAll`, `ApplicationNetwork.awaitAnyOfStates` — the three calls
* `Contract` — what the documentation promises
* `FailsEarly` — a task fails while another is still to complete

## Main results

* `taskGroupStep_of_step` — the list of what actions do is complete
* `failsFast_iff` — a failure reaches the caller exactly when all tasks are done
* `exists_failed_and_hanging` — so one task that hangs hides it
* `contract_of_reachable` — the contract is kept when no task fails early
-/

namespace Shabdiz

variable {δ ι ρ η : Type}

/-! ### Tasks -/

/-- A task submitted with `runAsync`: the call it makes on a descriptor, by the thread that makes
it, and its future. -/
structure Task (δ ι : Type) where
  descriptor : δ
  thread : ι
  future : CompletableFuture Unit Throwable
deriving DecidableEq

namespace Task

variable {t : Task δ ι}

/-- The future of the task has completed without an exception. -/
def succeeded (t : Task δ ι) : Bool := t.future.outcome = some (.completed ())

/-- The task's own call has thrown. -/
def failed (t : Task δ ι) : Bool :=
  t.future.outcome matches some (.completedExceptionally (.exception _))

/-- Complete the future as the task's call has ended. -/
@[simps]
def complete (result : Except Throwable Unit) (t : Task δ ι) : Task δ ι :=
  { t with
    future :=
      match result with
      | .ok () => t.future.complete ()
      | .error e => t.future.completeExceptionally (.exception e) }

/-- Cancel the future of the task; a task under way goes on. -/
@[simps]
def cancel (t : Task δ ι) : Task δ ι := { t with future := t.future.cancel }

end Task

/-! ### Futures of tasks -/

section Futures

variable {t : Task δ ι} {result : Except Throwable Unit}

theorem Task.isDone_of_succeeded (h : t.succeeded = true) : t.future.isDone = true := by
  have hout : t.future.outcome = some (.completed ()) := of_decide_eq_true h
  exact CompletableFuture.isDone_iff.mpr ⟨_, hout⟩

theorem Task.failed_iff :
    t.failed = true ↔ ∃ e, t.future.outcome = some (.completedExceptionally (.exception e)) := by
  unfold Task.failed
  split
  · rename_i e he
    simp [he]
  · rename_i hne
    simp only [Bool.false_eq_true, false_iff]
    rintro ⟨e, he⟩
    exact hne e he

theorem Task.isDone_of_failed (h : t.failed = true) : t.future.isDone = true := by
  obtain ⟨e, he⟩ := Task.failed_iff.mp h
  exact CompletableFuture.isDone_iff.mpr ⟨_, he⟩

theorem Task.not_succeeded_of_failed (h : t.failed = true) : t.succeeded = false := by
  obtain ⟨e, he⟩ := Task.failed_iff.mp h
  simp [Task.succeeded, he]

/-- A future that is done keeps its outcome. -/
theorem Task.complete_of_isDone (h : t.future.isDone = true) : t.complete result = t := by
  obtain ⟨d, i, f⟩ := t
  cases result with
  | ok => exact congrArg (Task.mk d i) (CompletableFuture.settle_of_isDone h)
  | error => exact congrArg (Task.mk d i) (CompletableFuture.settle_of_isDone h)

theorem Task.cancel_of_isDone (h : t.future.isDone = true) : t.cancel = t := by
  obtain ⟨d, i, f⟩ := t
  exact congrArg (Task.mk d i) (CompletableFuture.settle_of_isDone h)

@[simp] theorem Task.isDone_complete : (t.complete result).future.isDone = true := by
  cases result <;> exact CompletableFuture.isDone_settle

@[simp] theorem Task.isDone_cancel : t.cancel.future.isDone = true :=
  CompletableFuture.isDone_settle

/-- The call of a task does not cancel its future. -/
theorem Task.isCancelled_complete (h : t.future.isCancelled = false) :
    (t.complete result).future.isCancelled = false := by
  obtain ⟨d, i, ⟨outcome⟩⟩ := t
  cases outcome with
  | none => cases result <;> rfl
  | some o => cases result <;> exact h

/-- A pending future has failed when its call has. -/
theorem Task.failed_complete (h : t.future.isDone = false) :
    (t.complete result).failed = true ↔ ∃ e, result = .error e := by
  obtain ⟨d, i, ⟨outcome⟩⟩ := t
  cases outcome with
  | none => cases result <;> simp [Task.failed_iff, Task.complete, CompletableFuture.complete,
      CompletableFuture.completeExceptionally, CompletableFuture.settle]
  | some o => cases h

/-- A task that is done and has neither failed nor been cancelled has succeeded. -/
theorem Task.succeeded_of_isDone (h : t.future.isDone = true)
    (hcancelled : t.future.isCancelled = false) (hfailed : t.failed = false) :
    t.succeeded = true := by
  obtain ⟨d, i, ⟨outcome⟩⟩ := t
  rcases outcome with _ | (_ | (_ | _))
  · cases h
  · rfl
  · cases hcancelled
  · cases hfailed

end Futures

/-- How a call made by a task has ended, if it has. -/
def Call.result : Call ρ → Option (Except Throwable Unit)
  | awaitAnyOfStates _ .returned => some (.ok ())
  | awaitAnyOfStates _ .interrupted => some (.error (.thrown .interruptedException))
  | deploy (.updating .returned) => some (.ok ())
  | deploy (.thrown e) => some (.error e)
  | kill (.updating .returned) => some (.ok ())
  | kill (.thrown e) => some (.error e)
  | _ => none

/-- How the call of a thread has ended, if it has. -/
def threadResult : Thread Operation (Call ρ) → Option (Except Throwable Unit)
  | .ready _ => none
  | .running k => k.result

/-! ### The call -/

/-- What `awaitDeploymentTasksCompletion` throws. -/
inductive AwaitException where
  /-- One of the tasks has failed. -/
  | executionException
  /-- The caller was interrupted while it waited. -/
  | interruptedException
deriving DecidableEq

/-- Control points of the call. -/
inductive TaskGroupPoint where
  /-- In the loop over the descriptors. -/
  | submitting
  /-- Inside `CompletableFuture.allOf(..).get()`. -/
  | awaiting
  /-- In the `finally` block, at the `k`-th future, with the exception to throw in the end. -/
  | cancelling (k : Nat) (e : Option AwaitException)
  | returned
  | thrown (e : AwaitException)
deriving DecidableEq

/-- The end of a call that throws `e`, if anything. -/
def TaskGroupPoint.ending : Option AwaitException → TaskGroupPoint
  | none => .returned
  | some e => .thrown e

/-- A network, and one call that submits a task for each descriptor. -/
structure TaskGroup (δ ι ρ : Type) where
  network : δ → DescriptorConfig ι ρ
  /-- The tasks, in the order they were submitted. -/
  tasks : List (Task δ ι)
  point : TaskGroupPoint

/-- What can happen. -/
inductive TaskGroupAction (δ ι η : Type) where
  /-- A thread of a descriptor takes a step, of a task or not. -/
  | network (a : δ × (ι × Answer η))
  /-- The loop submits the task of a descriptor; thread `i` will run it. -/
  | submit (d : δ) (i : ι)
  /-- The loop has come to its end. -/
  | endLoop
  /-- The call of the `k`-th task has ended, and its future is completed. -/
  | complete (k : Nat)
  /-- The caller is interrupted while it waits. -/
  | interrupt
  /-- The caller takes its next step. -/
  | caller

section Machine

variable [DecidableEq δ] [DecidableEq ι] [DecidableEq ρ]

/-- A task that is cancelled before it has begun never begins. -/
def TaskGroup.neverBegins (c : TaskGroup δ ι ρ) (d : δ) (i : ι) : Bool :=
  ((c.network d).thread i matches .ready _) &&
    c.tasks.any fun t => t.descriptor = d && t.thread = i && t.future.isDone

/-- The group holds a task of this thread for this descriptor. -/
def TaskGroup.hasTask (c : TaskGroup δ ι ρ) (d : δ) (i : ι) : Bool :=
  c.tasks.any fun t => t.descriptor = d && t.thread = i

/-- The caller's next step. `get` returns when every future is done, and throws if one of them was
completed exceptionally; the `finally` block cancels the futures one after another. -/
def TaskGroup.callerStep (c : TaskGroup δ ι ρ) : Option (TaskGroup δ ι ρ) :=
  match c.point with
  | .awaiting =>
    if c.tasks.all fun t => t.future.isDone then
      some { c with
        point := .cancelling 0
          (if c.tasks.all Task.succeeded then none else some .executionException) }
    else none
  | .cancelling k e =>
    if k < c.tasks.length then
      some { c with tasks := c.tasks.modify k Task.cancel, point := .cancelling (k + 1) e }
    else some { c with point := .ending e }
  | _ => none

/-- One step of a call whose tasks perform `o`. -/
def TaskGroup.step (m : δ → AbstractApplicationManager ρ η) (o : Operation)
    (c : TaskGroup δ ι ρ) : TaskGroupAction δ ι η → Option (TaskGroup δ ι ρ)
  | .network a =>
    if c.neverBegins a.1 a.2.1 then none
    else ((networkMachine ι m).step c.network a).map fun network => { c with network := network }
  | .submit d i =>
    if c.point = .submitting ∧ (c.network d).thread i = .ready o ∧ c.hasTask d i = false then
      some { c with tasks := c.tasks ++ [⟨d, i, .pending⟩] }
    else none
  | .endLoop => if c.point = .submitting then some { c with point := .awaiting } else none
  | .complete k =>
    match c.tasks[k]? with
    | none => none
    | some t =>
      match threadResult ((c.network t.descriptor).thread t.thread) with
      | none => none
      | some result => some { c with tasks := c.tasks.modify k (Task.complete result) }
  | .interrupt =>
    if c.point = .awaiting then
      some { c with point := .cancelling 0 (some .interruptedException) }
    else none
  | .caller => c.callerStep

/-- A call whose tasks perform `o`, from any state that the network can be in. -/
def taskGroupMachine (ι : Type) [DecidableEq ι] (m : δ → AbstractApplicationManager ρ η)
    (o : Operation) : Machine (TaskGroup δ ι ρ) (TaskGroupAction δ ι η) where
  init c := (networkMachine ι m).Reachable c.network ∧ c.tasks = [] ∧ c.point = .submitting
  step := TaskGroup.step m o

/-- `ApplicationNetwork.deployAll`. -/
def deployAll (ι : Type) [DecidableEq ι] (m : δ → AbstractApplicationManager ρ η) :
    Machine (TaskGroup δ ι ρ) (TaskGroupAction δ ι η) :=
  taskGroupMachine ι m .deploy

/-- `ApplicationNetwork.killAll`. -/
def killAll (ι : Type) [DecidableEq ι] (m : δ → AbstractApplicationManager ρ η) :
    Machine (TaskGroup δ ι ρ) (TaskGroupAction δ ι η) :=
  taskGroupMachine ι m .kill

/-- `ApplicationNetwork.awaitAnyOfStates`. -/
def ApplicationNetwork.awaitAnyOfStates (ι : Type) [DecidableEq ι]
    (m : δ → AbstractApplicationManager ρ η) (states : List ApplicationState) :
    Machine (TaskGroup δ ι ρ) (TaskGroupAction δ ι η) :=
  taskGroupMachine ι m (.awaitAnyOfStates states)

/-- What an action does: the guards that let it happen, and the state after it. -/
inductive TaskGroupStep (m : δ → AbstractApplicationManager ρ η) (o : Operation)
    (c : TaskGroup δ ι ρ) : TaskGroupAction δ ι η → TaskGroup δ ι ρ → Prop where
  | network {a network} (hbegins : c.neverBegins a.1 a.2.1 = false)
      (hnetwork : (networkMachine ι m).step c.network a = some network) :
      TaskGroupStep m o c (.network a) { c with network := network }
  | submit {d i} (hpoint : c.point = .submitting) (hready : (c.network d).thread i = .ready o)
      (hnew : c.hasTask d i = false) :
      TaskGroupStep m o c (.submit d i) { c with tasks := c.tasks ++ [⟨d, i, .pending⟩] }
  | endLoop (hpoint : c.point = .submitting) :
      TaskGroupStep m o c .endLoop { c with point := .awaiting }
  | complete {k t result} (ht : c.tasks[k]? = some t)
      (hresult : threadResult ((c.network t.descriptor).thread t.thread) = some result) :
      TaskGroupStep m o c (.complete k) { c with tasks := c.tasks.modify k (Task.complete result) }
  | interrupt (hpoint : c.point = .awaiting) :
      TaskGroupStep m o c .interrupt
        { c with point := .cancelling 0 (some .interruptedException) }
  /-- `get` ends. -/
  | get (hpoint : c.point = .awaiting) (hdone : ∀ t ∈ c.tasks, t.future.isDone = true) :
      TaskGroupStep m o c .caller
        { c with
          point := .cancelling 0
            (if c.tasks.all Task.succeeded then none else some .executionException) }
  | cancel {k e} (hpoint : c.point = .cancelling k e) (hk : k < c.tasks.length) :
      TaskGroupStep m o c .caller
        { c with tasks := c.tasks.modify k Task.cancel, point := .cancelling (k + 1) e }
  /-- The `finally` block ends. -/
  | finish {k e} (hpoint : c.point = .cancelling k e) (hk : c.tasks.length ≤ k) :
      TaskGroupStep m o c .caller { c with point := .ending e }

/-- The list is complete. -/
theorem taskGroupStep_of_step {m : δ → AbstractApplicationManager ρ η} {o : Operation}
    {c c' : TaskGroup δ ι ρ} {a : TaskGroupAction δ ι η}
    (hs : (taskGroupMachine ι m o).step c a = some c') : TaskGroupStep m o c a c' := by
  cases a with
  | network a =>
    obtain ⟨hbegins, hs⟩ := Option.ite_none_left_eq_some.mp hs
    obtain ⟨network, hnetwork, rfl⟩ := Option.map_eq_some_iff.mp hs
    exact .network (Bool.eq_false_iff.mpr hbegins) hnetwork
  | submit d i =>
    obtain ⟨⟨hpoint, hready, hnew⟩, hs⟩ := Option.ite_none_right_eq_some.mp hs
    obtain rfl := Option.some.inj hs
    exact .submit hpoint hready hnew
  | endLoop =>
    obtain ⟨hpoint, hs⟩ := Option.ite_none_right_eq_some.mp hs
    obtain rfl := Option.some.inj hs
    exact .endLoop hpoint
  | complete k =>
    simp only [taskGroupMachine, TaskGroup.step] at hs
    split at hs
    · cases hs
    · rename_i t ht
      split at hs
      · cases hs
      · rename_i result hresult
        obtain rfl := Option.some.inj hs
        exact .complete ht hresult
  | interrupt =>
    obtain ⟨hpoint, hs⟩ := Option.ite_none_right_eq_some.mp hs
    obtain rfl := Option.some.inj hs
    exact .interrupt hpoint
  | caller =>
    have hs : c.callerStep = some c' := hs
    unfold TaskGroup.callerStep at hs
    split at hs
    · rename_i hpoint
      obtain ⟨hdone, hs⟩ := Option.ite_none_right_eq_some.mp hs
      obtain rfl := Option.some.inj hs
      exact .get hpoint (List.all_eq_true.mp hdone)
    · rename_i k e hpoint
      split at hs
      · rename_i hk
        obtain rfl := Option.some.inj hs
        exact .cancel hpoint hk
      · rename_i hk
        obtain rfl := Option.some.inj hs
        exact .finish hpoint (Nat.le_of_not_lt hk)
    · cases hs

/-! ### What the caller can do by itself -/

section Caller

variable {m : δ → AbstractApplicationManager ρ η} {o : Operation} {c c' : TaskGroup δ ι ρ}

/-- A run in which only the caller moves. -/
def CallerRun (m : δ → AbstractApplicationManager ρ η) (o : Operation)
    (c c' : TaskGroup δ ι ρ) : Prop :=
  (taskGroupMachine ι m o).RunOf (fun _ a => a matches .caller) c c'

theorem CallerRun.head (h : c.callerStep = some c') {c'' : TaskGroup δ ι ρ}
    (h' : CallerRun m o c' c'') : CallerRun m o c c'' :=
  Machine.RunOf.head (a := .caller) rfl h h'

/-- The `finally` block cancels the futures from the `k`-th on, and ends the call. -/
theorem exists_callerRun_of_cancelling {k : Nat} {e : Option AwaitException}
    (hpoint : c.point = .cancelling k e) :
    ∃ c', CallerRun m o c c' ∧ c'.network = c.network ∧
      (∀ j, c'.tasks[j]? = if k ≤ j then c.tasks[j]?.map Task.cancel else c.tasks[j]?) ∧
      c'.point = .ending e := by
  induction hn : c.tasks.length - k generalizing c k with
  | zero =>
    have hk : ¬ k < c.tasks.length := by omega
    have hstep : c.callerStep = some { c with point := .ending e } := by
      simp [TaskGroup.callerStep, hpoint, hk]
    refine ⟨_, CallerRun.head hstep Machine.RunOf.refl, rfl, fun j => ?_, rfl⟩
    split
    · have hj : c.tasks[j]? = none := List.getElem?_eq_none (by omega)
      simp [hj]
    · rfl
  | succ n ih =>
    have hk : k < c.tasks.length := by omega
    obtain ⟨c', hr, hnet, htasks, hend⟩ := ih
      (c := { c with tasks := c.tasks.modify k Task.cancel, point := .cancelling (k + 1) e }) rfl
      (by simp only [List.length_modify]; omega)
    refine ⟨c', hr.head (by simp [TaskGroup.callerStep, hpoint, hk]), hnet, fun j => ?_, hend⟩
    rw [htasks j, List.getElem?_modify]
    by_cases hkj : k = j
    · subst hkj
      rw [if_neg (by omega), if_pos (Nat.le_refl k)]
      simp
    · have hiff : k + 1 ≤ j ↔ k ≤ j := by omega
      simp only [hkj, hiff, if_false]
      split <;> simp

omit [DecidableEq δ] [DecidableEq ι] [DecidableEq ρ] in
/-- **`get` waits for all.** The caller can go on exactly when every task is done. -/
theorem callerStep_isSome_iff (hpoint : c.point = .awaiting) :
    c.callerStep.isSome = true ↔ ∀ t ∈ c.tasks, t.future.isDone = true := by
  simp [TaskGroup.callerStep, hpoint]

omit [DecidableEq δ] [DecidableEq ι] [DecidableEq ρ] in
theorem callerStep_of_done (hpoint : c.point = .awaiting)
    (hdone : ∀ t ∈ c.tasks, t.future.isDone = true) :
    c.callerStep = some { c with
      point := .cancelling 0
        (if c.tasks.all Task.succeeded then none else some .executionException) } := by
  simp only [TaskGroup.callerStep, hpoint, List.all_eq_true.mpr hdone, if_true]

/-- When all tasks are done the caller gets to the end by itself, and throws if one has not
succeeded. The tasks it cancels then are done. -/
theorem exists_callerRun_of_done (hpoint : c.point = .awaiting)
    (hdone : ∀ t ∈ c.tasks, t.future.isDone = true) :
    ∃ c', CallerRun m o c c' ∧ c'.tasks = c.tasks.map Task.cancel ∧
      c'.point =
        .ending (if c.tasks.all Task.succeeded then none else some .executionException) := by
  obtain ⟨c', hr, -, htasks, hend⟩ := exists_callerRun_of_cancelling (m := m) (o := o)
    (c := { c with
      point := .cancelling 0
        (if c.tasks.all Task.succeeded then none else some .executionException) }) rfl
  refine ⟨c', hr.head (callerStep_of_done hpoint hdone), List.ext_getElem? fun j => ?_, hend⟩
  rw [htasks j, List.getElem?_map]
  simp

/-- A caller that is to wait for a task does not move. -/
theorem CallerRun.eq_of_pending (h : CallerRun m o c c') (hpoint : c.point = .awaiting)
    (hpending : ∃ t ∈ c.tasks, t.future.isDone = false) : c' = c := by
  refine h.invariant (I := fun d => d = c) rfl ?_
  rintro d a d' - rfl ha hs
  cases a with
  | caller =>
    have hsome : d.callerStep.isSome = true := by
      have hs : d.callerStep = some d' := hs
      rw [hs]
      rfl
    obtain ⟨t, ht, hdone⟩ := hpending
    rw [(callerStep_isSome_iff hpoint).mp hsome t ht] at hdone
    cases hdone
  | _ => cases ha

/-! ### The contract -/

/-- "If one deployment task fails all deployment tasks are cancelled": once a task has failed, a
caller that waits gets by itself to where it throws, with every task cancelled that was not done.
No other task has to make progress. -/
def FailsFast (m : δ → AbstractApplicationManager ρ η) (o : Operation) (c : TaskGroup δ ι ρ) :
    Prop :=
  c.point = .awaiting → (∃ t ∈ c.tasks, t.failed = true) →
    ∃ c', CallerRun m o c c' ∧ c'.tasks = c.tasks.map Task.cancel ∧
      c'.point = .thrown .executionException

/-- **A failure reaches the caller exactly when every task is done.** -/
theorem failsFast_iff (hpoint : c.point = .awaiting) (hfailed : ∃ t ∈ c.tasks, t.failed = true) :
    FailsFast m o c ↔ ∀ t ∈ c.tasks, t.future.isDone = true := by
  constructor
  · intro h
    by_contra hnot
    simp only [not_forall, Bool.not_eq_true] at hnot
    obtain ⟨t, ht, hpending⟩ := hnot
    obtain ⟨c', hr, -, hend⟩ := h hpoint hfailed
    rw [hr.eq_of_pending hpoint ⟨t, ht, hpending⟩, hpoint] at hend
    cases hend
  · intro hdone _ _
    obtain ⟨t, ht, hfail⟩ := hfailed
    have hall : c.tasks.all Task.succeeded = false := by
      rw [List.all_eq_false]
      exact ⟨t, ht, by simp [Task.not_succeeded_of_failed hfail]⟩
    obtain ⟨c', hr, htasks, hend⟩ := exists_callerRun_of_done (m := m) (o := o) hpoint hdone
    rw [hall] at hend
    exact ⟨c', hr, htasks, hend⟩

end Caller

/-! ### Over runs -/

section Runs

variable {m : δ → AbstractApplicationManager ρ η} {o : Operation} {c c' : TaskGroup δ ι ρ}
  {P : TaskGroup δ ι ρ → TaskGroupAction δ ι η → Prop}

omit [DecidableEq δ] [DecidableEq ι] [DecidableEq ρ] in
/-- The tasks after one of them has changed. -/
theorem mem_modify {tasks : List (Task δ ι)} {k : Nat} {f : Task δ ι → Task δ ι} {t : Task δ ι}
    (ht : t ∈ tasks.modify k f) : t ∈ tasks ∨ ∃ u, tasks[k]? = some u ∧ t = f u := by
  obtain ⟨j, hj⟩ := List.mem_iff_getElem?.mp ht
  rw [List.getElem?_modify] at hj
  obtain ⟨u, hu, rfl⟩ := Option.map_eq_some_iff.mp hj
  by_cases hkj : k = j
  · subst hkj
    exact Or.inr ⟨u, hu, by simp⟩
  · exact Or.inl (by simpa [hkj] using List.mem_of_getElem? hu)

omit [DecidableEq δ] [DecidableEq ι] [DecidableEq ρ] in
theorem mem_modify_of_mem {tasks : List (Task δ ι)} (k : Nat) (f : Task δ ι → Task δ ι)
    {t : Task δ ι} (ht : t ∈ tasks) : t ∈ tasks.modify k f ∨ f t ∈ tasks.modify k f := by
  obtain ⟨j, hj⟩ := List.mem_iff_getElem?.mp ht
  have hmem : (tasks.modify k f)[j]? = some (if k = j then f t else t) := by
    rw [List.getElem?_modify, hj]
    rfl
  have := List.mem_of_getElem? hmem
  split at this
  · exact Or.inr this
  · exact Or.inl this

/-- What the caller's control point says about the tasks. -/
def Reports (tasks : List (Task δ ι)) : TaskGroupPoint → Prop
  | .submitting => ∀ t ∈ tasks, t.future.isCancelled = false
  | .awaiting => ∀ t ∈ tasks, t.future.isCancelled = false
  | .cancelling _ none => ∀ t ∈ tasks, t.succeeded = true
  | .returned => ∀ t ∈ tasks, t.succeeded = true
  | .cancelling _ (some .executionException) => ∃ t ∈ tasks, t.failed = true
  | .thrown .executionException => ∃ t ∈ tasks, t.failed = true
  | _ => True

omit [DecidableEq δ] [DecidableEq ι] [DecidableEq ρ] in
/-- Completing or cancelling a future leaves those alone that are done. -/
theorem Reports.modify {tasks : List (Task δ ι)} {p : TaskGroupPoint} (h : Reports tasks p)
    {k : Nat} {f : Task δ ι → Task δ ι} (hdone : ∀ t, t.future.isDone = true → f t = t)
    (hcancelled : p = .submitting ∨ p = .awaiting →
      ∀ t, t.future.isCancelled = false → (f t).future.isCancelled = false) :
    Reports (tasks.modify k f) p := by
  have hall : ∀ q : Task δ ι → Prop, (∀ t ∈ tasks, q t) → (∀ t ∈ tasks, q t → q (f t)) →
      ∀ t ∈ tasks.modify k f, q t := by
    intro q hq hf t ht
    obtain ht | ⟨u, hu, rfl⟩ := mem_modify ht
    · exact hq t ht
    · exact hf u (List.mem_of_getElem? hu) (hq u (List.mem_of_getElem? hu))
  have hsucceeded : (∀ t ∈ tasks, t.succeeded = true) →
      ∀ t ∈ tasks.modify k f, t.succeeded = true := by
    intro hs
    refine hall _ hs fun t _ ht => ?_
    rw [hdone t (Task.isDone_of_succeeded ht)]
    exact ht
  have hfailed : (∃ t ∈ tasks, t.failed = true) → ∃ t ∈ tasks.modify k f, t.failed = true := by
    rintro ⟨t, ht, hfail⟩
    have hmem := mem_modify_of_mem k f ht
    rw [hdone t (Task.isDone_of_failed hfail), or_self] at hmem
    exact ⟨t, hmem, hfail⟩
  match p, h with
  | .submitting, h => exact hall _ h fun t _ ht => hcancelled (Or.inl rfl) t ht
  | .awaiting, h => exact hall _ h fun t _ ht => hcancelled (Or.inr rfl) t ht
  | .cancelling _ none, h => exact hsucceeded h
  | .cancelling _ (some .executionException), h => exact hfailed h
  | .cancelling _ (some .interruptedException), _ => trivial
  | .returned, h => exact hsucceeded h
  | .thrown .executionException, h => exact hfailed h
  | .thrown .interruptedException, _ => trivial

/-- **Each action keeps the caller's report true.** -/
theorem reports_of_step {a : TaskGroupAction δ ι η} (h : Reports c.tasks c.point)
    (hs : TaskGroupStep m o c a c') : Reports c'.tasks c'.point := by
  cases hs with
  | network => exact h
  | submit hpoint =>
    rw [hpoint] at h
    show Reports _ c.point
    rw [hpoint]
    intro t ht
    obtain ht | rfl := List.mem_append.mp ht |>.imp_right List.mem_singleton.mp
    · exact h t ht
    · rfl
  | endLoop hpoint =>
    rw [hpoint] at h
    exact h
  | complete =>
    exact h.modify (fun t => Task.complete_of_isDone) fun _ t => Task.isCancelled_complete
  | interrupt => trivial
  | get hpoint hdone =>
    rw [hpoint] at h
    cases hall : c.tasks.all Task.succeeded with
    | true => exact List.all_eq_true.mp hall
    | false =>
      obtain ⟨t, ht, hnot⟩ := List.all_eq_false.mp hall
      refine ⟨t, ht, ?_⟩
      by_contra hfail
      exact hnot (Task.succeeded_of_isDone (hdone t ht) (h t ht) (by simpa using hfail))
  | @cancel k e hpoint =>
    rw [hpoint] at h
    have hk := h.modify (k := k) (f := Task.cancel) (fun t => Task.cancel_of_isDone) (by simp)
    cases e with
    | none => exact hk
    | some e => cases e <;> exact hk
  | @finish k e hpoint =>
    rw [hpoint] at h
    cases e with
    | none => exact h
    | some e => cases e <;> exact h

theorem reports_of_reachable (h : (taskGroupMachine ι m o).ReachableOf P c) :
    Reports c.tasks c.point := by
  refine h.invariant (I := fun c => Reports c.tasks c.point) ?_
    fun c a c' _ hc _ hs => reports_of_step hc (taskGroupStep_of_step hs)
  rintro c ⟨-, htasks, hpoint⟩
  rw [htasks, hpoint]
  simp [Reports]

/-- Whether the call of a pending task has thrown, so that completing the task fails it. -/
def TaskGroup.isFailing (c : TaskGroup δ ι ρ) (t : Task δ ι) : Bool :=
  !t.future.isDone &&
    (threadResult ((c.network t.descriptor).thread t.thread) matches some (.error _))

/-- A task fails while the loop is still submitting tasks, or while the caller waits and another
task is not done. -/
def FailsEarly (c : TaskGroup δ ι ρ) : TaskGroupAction δ ι η → Prop
  | .complete k =>
    c.tasks[k]?.any c.isFailing = true ∧ (c.point = .submitting ∨
      (c.point = .awaiting ∧ ((c.tasks.eraseIdx k).any fun t => !t.future.isDone) = true))
  | _ => False

instance (c : TaskGroup δ ι ρ) (a : TaskGroupAction δ ι η) : Decidable (FailsEarly c a) :=
  match a with
  | .complete _ => inferInstanceAs (Decidable (_ ∧ (_ ∨ (_ ∧ _))))
  | .network _ | .submit _ _ | .endLoop | .interrupt | .caller => instDecidableFalse

/-- Failures so far, when none was early. -/
def FailsLast (tasks : List (Task δ ι)) : TaskGroupPoint → Prop
  | .submitting => ∀ t ∈ tasks, t.failed = false
  | .awaiting => (∃ t ∈ tasks, t.failed = true) → ∀ t ∈ tasks, t.future.isDone = true
  | _ => True

omit [DecidableEq δ] [DecidableEq ι] [DecidableEq ρ] in
theorem modify_of_isDone {tasks : List (Task δ ι)} {k : Nat} {t : Task δ ι}
    {result : Except Throwable Unit} (ht : tasks[k]? = some t) (hdone : t.future.isDone = true) :
    tasks.modify k (Task.complete result) = tasks := by
  refine List.ext_getElem? fun j => ?_
  rw [List.getElem?_modify]
  by_cases hkj : k = j
  · subst hkj
    simp [ht, Task.complete_of_isDone hdone]
  · simp [hkj]

omit [DecidableEq δ] [DecidableEq ι] [DecidableEq ρ] in
/-- A task that is completed normally adds no failure. -/
theorem exists_failed_of_modify {tasks : List (Task δ ι)} {k : Nat} {t : Task δ ι}
    (ht : tasks[k]? = some t) (hpending : t.future.isDone = false)
    (h : ∃ u ∈ tasks.modify k (Task.complete (.ok ())), u.failed = true) :
    ∃ u ∈ tasks, u.failed = true := by
  obtain ⟨u, hu, hfail⟩ := h
  obtain hu | ⟨v, hv, rfl⟩ := mem_modify hu
  · exact ⟨u, hu, hfail⟩
  · obtain rfl : t = v := Option.some.inj (ht.symm.trans hv)
    obtain ⟨e, he⟩ := (Task.failed_complete hpending).mp hfail
    cases he

omit [DecidableEq δ] [DecidableEq ι] [DecidableEq ρ] in
/-- **A completion that is not an early failure.** -/
theorem failsLast_complete {k : Nat} {t : Task δ ι} {result : Except Throwable Unit}
    (h : FailsLast c.tasks c.point) (ht : c.tasks[k]? = some t)
    (hresult : threadResult ((c.network t.descriptor).thread t.thread) = some result)
    (hP : ¬ FailsEarly (η := η) c (.complete k)) :
    FailsLast (c.tasks.modify k (Task.complete result)) c.point := by
  cases hdone : t.future.isDone with
  | true => rwa [modify_of_isDone ht hdone]
  | false =>
    have hmem := List.mem_of_getElem? ht
    have hfailing : ∀ e, result = .error e → c.tasks[k]?.any c.isFailing = true := by
      rintro e rfl
      simp [ht, TaskGroup.isFailing, hdone, hresult]
    cases hpoint : c.point with
    | submitting =>
      rw [hpoint] at h
      intro u hu
      by_contra hfail
      obtain hu | ⟨v, hv, rfl⟩ := mem_modify hu
      · exact hfail (h u hu)
      · obtain rfl : t = v := Option.some.inj (ht.symm.trans hv)
        obtain ⟨e, rfl⟩ := (Task.failed_complete hdone).mp (by simpa using hfail)
        exact hP ⟨hfailing e rfl, Or.inl hpoint⟩
    | awaiting =>
      rw [hpoint] at h
      intro hfailed u hu
      cases result with
      | ok =>
        have hall := h (exists_failed_of_modify ht hdone hfailed)
        rw [hall t hmem] at hdone
        cases hdone
      | error e =>
        -- all others are done, and this one is now
        obtain ⟨j, hj⟩ := List.mem_iff_getElem?.mp hu
        rw [List.getElem?_modify] at hj
        obtain ⟨v, hv, rfl⟩ := Option.map_eq_some_iff.mp hj
        by_cases hkj : k = j
        · rw [if_pos hkj]
          exact Task.isDone_complete
        · rw [if_neg hkj]
          by_contra hnot
          have hother : v ∈ c.tasks.eraseIdx k :=
            List.mem_eraseIdx_iff_getElem?.mpr ⟨j, Ne.symm hkj, hv⟩
          exact hP ⟨hfailing e rfl,
            Or.inr ⟨hpoint, List.any_eq_true.mpr ⟨v, hother, by simpa using hnot⟩⟩⟩
    | _ => trivial

theorem failsLast_of_step {a : TaskGroupAction δ ι η} (h : FailsLast c.tasks c.point)
    (hP : ¬ FailsEarly c a) (hs : TaskGroupStep m o c a c') : FailsLast c'.tasks c'.point := by
  cases hs with
  | network => exact h
  | submit hpoint =>
    rw [hpoint] at h
    show FailsLast _ c.point
    rw [hpoint]
    intro t ht
    obtain ht | rfl := List.mem_append.mp ht |>.imp_right List.mem_singleton.mp
    · exact h t ht
    · rfl
  | endLoop hpoint =>
    rw [hpoint] at h
    rintro ⟨t, ht, hfail⟩
    rw [h t ht] at hfail
    cases hfail
  | complete ht hresult => exact failsLast_complete h ht hresult hP
  | @finish k e => cases e <;> trivial
  | _ => trivial

/-- What `deployAll` and `killAll` promise: if all tasks succeed the call returns, after all of
them; it throws only if one has failed; and it fails fast. -/
structure Contract (m : δ → AbstractApplicationManager ρ η) (o : Operation)
    (c : TaskGroup δ ι ρ) : Prop where
  returned : c.point = .returned → ∀ t ∈ c.tasks, t.succeeded = true
  returns : c.point = .awaiting → (∀ t ∈ c.tasks, t.succeeded = true) →
    ∃ c', CallerRun m o c c' ∧ c'.point = .returned
  thrown : c.point = .thrown .executionException → ∃ t ∈ c.tasks, t.failed = true
  failsFast : FailsFast m o c

theorem contract_of_failsFast (h : (taskGroupMachine ι m o).ReachableOf P c)
    (hfast : FailsFast m o c) : Contract m o c := by
  have hreports := reports_of_reachable h
  refine ⟨fun hpoint => ?_, fun hpoint hall => ?_, fun hpoint => ?_, hfast⟩
  · rw [hpoint] at hreports
    exact hreports
  · obtain ⟨c', hr, -, hend⟩ := exists_callerRun_of_done (m := m) (o := o) hpoint
      fun t ht => Task.isDone_of_succeeded (hall t ht)
    rw [List.all_eq_true.mpr hall] at hend
    exact ⟨c', hr, hend⟩
  · rw [hpoint] at hreports
    exact hreports

theorem contract_of_failsLast
    (h : (taskGroupMachine ι m o).ReachableOf (fun c a => ¬ FailsEarly c a) c) :
    Contract m o c := by
  have hlast : FailsLast c.tasks c.point := by
    refine h.invariant (I := fun c => FailsLast c.tasks c.point) ?_
      fun c a c' _ hc hP hs => failsLast_of_step hc hP (taskGroupStep_of_step hs)
    rintro c ⟨-, htasks, hpoint⟩
    rw [htasks, hpoint]
    simp [FailsLast]
  refine contract_of_failsFast h fun hpoint hfailed => ?_
  rw [hpoint] at hlast
  exact (failsFast_iff hpoint hfailed).mpr (hlast hfailed) hpoint hfailed

/-- **The contract is kept when no task fails early**, by `deployAll` and by `killAll`: when a task
fails, the loop has submitted all tasks and every other task is done. -/
theorem contract_of_reachable :
    (∀ c : TaskGroup δ ι ρ, (deployAll ι m).ReachableOf (fun c a => ¬ FailsEarly c a) c →
      Contract m .deploy c) ∧
    ∀ c : TaskGroup δ ι ρ, (killAll ι m).ReachableOf (fun c a => ¬ FailsEarly c a) c →
      Contract m .kill c :=
  ⟨fun _ => contract_of_failsLast, fun _ => contract_of_failsLast⟩

end Runs

end Machine

/-! ### A failure that nobody hears of -/

section Example

/-- Two descriptors, `false` and `true`, with one thread each that will deploy. -/
def twoDeployments : TaskGroup Bool Unit Unit where
  network _ := ⟨.new, fun _ => .ready .deploy⟩
  tasks := []
  point := .submitting

theorem twoDeployments_init :
    (deployAll Unit fun _ : Bool => .unconstrained Unit).init twoDeployments :=
  ⟨⟨_, fun _ => ⟨rfl, fun _ => ⟨_, rfl⟩⟩, Machine.RunOf.refl⟩, rfl, rfl⟩

/-- The loop submits both deployments and ends. -/
def submitBoth : List (TaskGroupAction Bool Unit (Except Throwable Unit)) :=
  [.submit false (), .submit true (), .endLoop]

/-- The deployment of `false` throws. -/
def failFirst : List (TaskGroupAction Bool Unit (Except Throwable Unit)) :=
  [.network (false, (), .go), .network (false, (), .deploy (.error (.thrown .exception))),
    .complete 0]

/-- The deployment of `true` goes through. -/
def succeedSecond : List (TaskGroupAction Bool Unit (Except Throwable Unit)) :=
  [.network (true, (), .go), .network (true, (), .deploy (.ok ())), .network (true, (), .go),
    .network (true, (), .go), .network (true, (), .go), .network (true, (), .go),
    .network (true, (), .go), .complete 1]

/-- The deployment of `false` has failed, that of `true` hangs, and the caller waits. -/
theorem exists_failed_and_hanging :
    ∃ c, (deployAll Unit fun _ : Bool => .unconstrained Unit).Reachable c ∧
      c.point = .awaiting ∧ (∃ t ∈ c.tasks, t.failed = true) ∧
      ¬ Contract (fun _ => .unconstrained Unit) .deploy c := by
  obtain ⟨c, hr, hc⟩ := (deployAll Unit fun _ : Bool => .unconstrained Unit).exists_run_of_exec
    twoDeployments (submitBoth ++ failFirst)
    (fun c => c.point = .awaiting ∧ (c.tasks.any Task.failed) ∧
      (c.tasks.any fun t => !t.future.isDone)) (by decide)
  obtain ⟨hpoint, hfailed, hpending⟩ := of_decide_eq_true hc
  obtain ⟨t, ht, hfail⟩ := List.any_eq_true.mp hfailed
  obtain ⟨u, hu, hdone⟩ := List.any_eq_true.mp hpending
  refine ⟨c, ⟨_, twoDeployments_init, hr⟩, hpoint, ⟨t, ht, hfail⟩, fun hcontract => ?_⟩
  rw [(failsFast_iff hpoint ⟨t, ht, hfail⟩).mp hcontract.failsFast u hu] at hdone
  cases hdone

/-- The deployment of `true` goes through, then that of `false` fails, and the caller throws. -/
theorem contract_failsLast :
    ∃ c, (deployAll Unit fun _ : Bool => .unconstrained Unit).Reachable c ∧
      c.point = .thrown .executionException ∧
      Contract (fun _ => .unconstrained Unit) .deploy c := by
  obtain ⟨c, hr, hc⟩ := (deployAll Unit fun _ : Bool => .unconstrained Unit).exists_runOf_of_execOf
    (fun c a => ¬ FailsEarly c a) twoDeployments
    (submitBoth ++ succeedSecond ++ failFirst ++ [.caller, .caller, .caller, .caller])
    (fun c => c.point = .thrown .executionException) (by decide)
  have hreach : (deployAll Unit fun _ : Bool => .unconstrained Unit).ReachableOf
      (fun c a => ¬ FailsEarly c a) c := ⟨_, twoDeployments_init, hr⟩
  exact ⟨c, hreach.reachable, of_decide_eq_true hc, contract_of_reachable.1 c hreach⟩

end Example

end Shabdiz
