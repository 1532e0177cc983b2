import Mathlib.Logic.Function.Basic
import Shabdiz.Concurrency.CompletableFuture
import Shabdiz.Concurrency.Machine
import Shabdiz.Concurrency.WeakIteration
import Shabdiz.Core.ApplicationDescriptor

/-!
# Shutting a network down

`ApplicationNetwork.shutdown` kills every application instance and closes the host of each. It does
so in two rounds. In each it goes through the descriptors, submits a task for every one of them,
waits for all tasks, and cancels them in the end; then it clears the set. Meanwhile others may add
descriptors and remove them, as a scan does that is still going on, and the caller may be
interrupted while it waits, which ends the wait and is only logged.

The scanners are disabled before, and the executors shut down after; neither changes what is
described here, since a task of a cached pool begins although the pool has been shut down. A task
logs most of what `kill` and `close` throw. If it throws the rest itself, its future is completed
exceptionally, which the caller logs when it has waited for all tasks. Either way `close` has been
called, but the host need not be closed.

## Main definitions

* `Round`, `TaskOutcome`, `ShutdownTask`, `Shutdown` — the two rounds, their tasks, how these end,
  and the network
* `shutdownMachine` — `shutdown`, its tasks, and what others do meanwhile
* `ShutdownStep` — what each action does
* `Shutdown.closedHosts` — the hosts whose `close` has returned
* `ShutdownSafe` — what is promised of every state of a shutdown

## Main results

* `shutdownStep_of_step` — the list of what actions do is complete
* `inShutdown_of_reachable` — the invariant, step by step
* `shutdownSafe_of_reachable` — instances are killed once each, and before `close` is called of any
  host
-/

namespace Shabdiz

variable {δ η : Type}

/-! ### The rounds -/

/-- What the tasks do: `killAllSilently`, and then `closeHosts`. -/
inductive Round where
  | kill
  | close
deriving DecidableEq

/-- Where a task is. -/
inductive TaskPhase where
  | ready
  | running
  | ended
deriving DecidableEq

/-- How `kill` or `close` ends in a task: what they throw is logged, or the task throws it. -/
inductive TaskOutcome where
  | returns
  | logs
  | throws (e : Throwable)
deriving DecidableEq

/-- How the future of a task is completed. -/
def TaskOutcome.complete (f : CompletableFuture Unit Throwable) :
    TaskOutcome → CompletableFuture Unit Throwable
  | throws e => f.completeExceptionally (.exception e)
  | _ => f.complete ()

theorem TaskOutcome.isDone_complete (f : CompletableFuture Unit Throwable) (o : TaskOutcome) :
    (o.complete f).isDone = true := by
  cases o <;> exact CompletableFuture.isDone_settle

/-- A task that was submitted with `runAsync`, and whether `kill` or `close` threw something in
it. -/
structure ShutdownTask (δ : Type) where
  descriptor : δ
  phase : TaskPhase
  threw : Bool
  future : CompletableFuture Unit Throwable
deriving DecidableEq

namespace ShutdownTask

/-- A task begins unless it was cancelled. -/
def begin (t : ShutdownTask δ) : Option (ShutdownTask δ) :=
  if t.phase = .ready ∧ t.future.isDone = false then some { t with phase := .running } else none

/-- A task ends. -/
def finish (outcome : TaskOutcome) (t : ShutdownTask δ) : Option (ShutdownTask δ) :=
  if t.phase = .running then
    some { t with
      phase := .ended, threw := outcome != .returns, future := outcome.complete t.future }
  else none

/-- Its future is cancelled, which does not touch the task. -/
def cancel (t : ShutdownTask δ) : ShutdownTask δ := { t with future := t.future.cancel }

end ShutdownTask

/-- Control points of `shutdown`. -/
inductive NetworkShutdownPoint (δ : Type) where
  /-- Before the loop over the descriptors. -/
  | called (r : Round)
  | submitting (r : Round) (it : WeakIteration δ)
  /-- Inside `CompletableFuture.allOf(..).get()`. -/
  | awaiting (r : Round)
  /-- In the `finally` block, at the `k`-th future. -/
  | cancelling (r : Round) (k : ℕ)
  /-- Before `application_descriptors.clear()`. -/
  | stopping
  | returned
deriving DecidableEq

/-- The point after a round. -/
def Round.next : Round → NetworkShutdownPoint δ
  | kill => .called .close
  | close => .stopping

/-- A network that is shut down. The last three fields are not the program's: what was in the set
when the call began and has not been removed, what was in it at any time since then, and whether
the caller was interrupted. -/
structure Shutdown (δ : Type) where
  members : Finset δ
  tasks : Round → List (ShutdownTask δ)
  point : NetworkShutdownPoint δ
  stayed : Finset δ
  known : Finset δ
  interrupted : Bool

/-- What can happen. -/
inductive ShutdownAction (δ : Type) where
  | add (d : δ)
  | remove (d : δ)
  /-- The caller takes its next step, and chooses the next element of an iteration. -/
  | caller (next : Option δ)
  /-- The caller is interrupted while it waits. -/
  | interrupt
  | begin (r : Round) (k : ℕ)
  | finish (r : Round) (k : ℕ) (outcome : TaskOutcome)

/-- Whether it is the caller or a task that takes a step. -/
def ShutdownAction.isOwn : ShutdownAction δ → Bool
  | .caller _ | .begin _ _ | .finish _ _ _ => true
  | _ => false

/-- An iteration that is going on takes notice of a removal. -/
def NetworkShutdownPoint.remove [LinearOrder δ] (d : δ) :
    NetworkShutdownPoint δ → NetworkShutdownPoint δ
  | .submitting r it => .submitting r (it.remove d)
  | p => p

namespace Shutdown

/-- The tasks of a round, with one of them changed. -/
def setTasks (s : Shutdown δ) (r : Round) (tasks : List (ShutdownTask δ)) : Shutdown δ :=
  { s with tasks := Function.update s.tasks r tasks }

variable [LinearOrder δ]

/-- One step of the caller. -/
def callerStep (s : Shutdown δ) (next : Option δ) : Option (Shutdown δ) :=
  match s.point with
  | .called r =>
    (WeakIteration.start s.members next).map fun it => { s with point := .submitting r it }
  | .submitting r it =>
    if it.next = none then some { s with point := .awaiting r }
    else
      (it.advance s.members next).map fun x =>
        { s.setTasks r (s.tasks r ++ [⟨x.1, .ready, false, .pending⟩]) with
          point := .submitting r x.2 }
  | .awaiting r =>
    if ∀ t ∈ s.tasks r, t.future.isDone = true then some { s with point := .cancelling r 0 }
    else none
  | .cancelling r k =>
    match (s.tasks r)[k]? with
    | some t =>
      some { s.setTasks r ((s.tasks r).set k t.cancel) with point := .cancelling r (k + 1) }
    | none => some { s with point := r.next }
  | .stopping => some { s with members := ∅, point := .returned }
  | .returned => none

/-- One step of a task. -/
def taskStep (s : Shutdown δ) (r : Round) (k : ℕ)
    (f : ShutdownTask δ → Option (ShutdownTask δ)) : Option (Shutdown δ) :=
  ((s.tasks r)[k]?.bind f).map fun t => s.setTasks r ((s.tasks r).set k t)

/-- What an action does, if it can happen. -/
def step (s : Shutdown δ) : ShutdownAction δ → Option (Shutdown δ)
  | .add d => some { s with members := insert d s.members, known := insert d s.known }
  | .remove d =>
    some { s with
      members := s.members.erase d, stayed := s.stayed.erase d, point := s.point.remove d }
  | .caller next => s.callerStep next
  | .interrupt =>
    match s.point with
    | .awaiting r => some { s with point := .cancelling r 0, interrupted := true }
    | _ => none
  | .begin r k => s.taskStep r k ShutdownTask.begin
  | .finish r k outcome => s.taskStep r k (ShutdownTask.finish outcome)

/-- The hosts whose `close` has returned. A descriptor may have none. -/
def closedHosts (host : δ → Option η) (s : Shutdown δ) : List η :=
  (s.tasks .close).filterMap fun t =>
    if t.phase = .ended ∧ t.threw = false then host t.descriptor else none

end Shutdown

/-- `shutdown` of a network with any members. -/
def shutdownMachine (δ : Type) [LinearOrder δ] : Machine (Shutdown δ) (ShutdownAction δ) where
  init s := s = ⟨s.members, fun _ => [], .called .kill, s.members, s.members, false⟩
  step := Shutdown.step

/-! ### What actions do -/

section Steps

variable [LinearOrder δ] {s s' : Shutdown δ} {a : ShutdownAction δ} {t t' : ShutdownTask δ}

/-- What an action does: the guards that let it happen, and the state after it. -/
inductive ShutdownStep (s : Shutdown δ) : ShutdownAction δ → Shutdown δ → Prop where
  | add {d} :
      ShutdownStep s (.add d)
        { s with members := insert d s.members, known := insert d s.known }
  | remove {d} :
      ShutdownStep s (.remove d)
        { s with
          members := s.members.erase d, stayed := s.stayed.erase d, point := s.point.remove d }
  | iterate {next r it} (hpoint : s.point = .called r)
      (hit : WeakIteration.start s.members next = some it) :
      ShutdownStep s (.caller next) { s with point := .submitting r it }
  | submit {next r it it' d} (hpoint : s.point = .submitting r it)
      (hit : it.advance s.members next = some (d, it')) :
      ShutdownStep s (.caller next)
        { s.setTasks r (s.tasks r ++ [⟨d, .ready, false, .pending⟩]) with
          point := .submitting r it' }
  | endLoop {next r it} (hpoint : s.point = .submitting r it) (hend : it.next = none) :
      ShutdownStep s (.caller next) { s with point := .awaiting r }
  | get {next r} (hpoint : s.point = .awaiting r)
      (hdone : ∀ t ∈ s.tasks r, t.future.isDone = true) :
      ShutdownStep s (.caller next) { s with point := .cancelling r 0 }
  | cancel {next r k t} (hpoint : s.point = .cancelling r k) (ht : (s.tasks r)[k]? = some t) :
      ShutdownStep s (.caller next)
        { s.setTasks r ((s.tasks r).set k t.cancel) with point := .cancelling r (k + 1) }
  | endRound {next r k} (hpoint : s.point = .cancelling r k) (hk : (s.tasks r)[k]? = none) :
      ShutdownStep s (.caller next) { s with point := r.next }
  | clear {next} (hpoint : s.point = .stopping) :
      ShutdownStep s (.caller next) { s with members := ∅, point := .returned }
  | interrupt {r} (hpoint : s.point = .awaiting r) :
      ShutdownStep s .interrupt { s with point := .cancelling r 0, interrupted := true }
  | begin {r k t t'} (ht : (s.tasks r)[k]? = some t) (hbegin : t.begin = some t') :
      ShutdownStep s (.begin r k) (s.setTasks r ((s.tasks r).set k t'))
  | finish {r k outcome t t'} (ht : (s.tasks r)[k]? = some t)
      (hfinish : t.finish outcome = some t') :
      ShutdownStep s (.finish r k outcome) (s.setTasks r ((s.tasks r).set k t'))

omit [LinearOrder δ] in
theorem exists_of_taskStep {r : Round} {k : ℕ} {f : ShutdownTask δ → Option (ShutdownTask δ)}
    (h : s.taskStep r k f = some s') :
    ∃ t t', (s.tasks r)[k]? = some t ∧ f t = some t' ∧
      s' = s.setTasks r ((s.tasks r).set k t') := by
  obtain ⟨t', ht', rfl⟩ := Option.map_eq_some_iff.mp h
  obtain ⟨t, ht, hf⟩ := Option.bind_eq_some_iff.mp ht'
  exact ⟨t, t', ht, hf, rfl⟩

/-- The list is complete. -/
theorem shutdownStep_of_step (h : (shutdownMachine δ).step s a = some s') :
    ShutdownStep s a s' := by
  cases a with
  | add d =>
    obtain rfl := Option.some.inj h
    exact .add
  | remove d =>
    obtain rfl := Option.some.inj h
    exact .remove
  | caller next =>
    replace h : s.callerStep next = some s' := h
    rw [Shutdown.callerStep] at h
    split at h
    · next r hpoint =>
      obtain ⟨it, hit, rfl⟩ := Option.map_eq_some_iff.mp h
      exact .iterate hpoint hit
    · next r it hpoint =>
      split at h
      · next hend =>
        obtain rfl := Option.some.inj h
        exact .endLoop hpoint hend
      · obtain ⟨⟨d, it'⟩, hit, rfl⟩ := Option.map_eq_some_iff.mp h
        exact .submit hpoint hit
    · next r hpoint =>
      obtain ⟨hdone, h⟩ := Option.ite_none_right_eq_some.mp h
      obtain rfl := Option.some.inj h
      exact .get hpoint hdone
    · next r k hpoint =>
      split at h
      · next t ht =>
        obtain rfl := Option.some.inj h
        exact .cancel hpoint ht
      · next hk =>
        obtain rfl := Option.some.inj h
        exact .endRound hpoint hk
    · next hpoint =>
      obtain rfl := Option.some.inj h
      exact .clear hpoint
    · cases h
  | interrupt =>
    replace h : s.step .interrupt = some s' := h
    simp only [Shutdown.step] at h
    split at h
    · next r hpoint =>
      obtain rfl := Option.some.inj h
      exact .interrupt hpoint
    · cases h
  | begin r k =>
    obtain ⟨t, t', ht, hf, rfl⟩ := exists_of_taskStep h
    exact .begin ht hf
  | finish r k outcome =>
    obtain ⟨t, t', ht, hf, rfl⟩ := exists_of_taskStep h
    exact .finish ht hf

end Steps

/-! ### What holds of a shutdown -/

/-- Where a round begins. Each has four stages. -/
def Round.base : Round → ℕ
  | kill => 0
  | close => 4

/-- How far `shutdown` has come at a point. -/
def NetworkShutdownPoint.stage : NetworkShutdownPoint δ → ℕ
  | called r => r.base
  | submitting r _ => r.base + 1
  | awaiting r => r.base + 2
  | cancelling r _ => r.base + 3
  | stopping => 8
  | returned => 9

theorem NetworkShutdownPoint.stage_lt (p : NetworkShutdownPoint δ) : p.stage < 10 := by
  cases p with
  | called r | submitting r | awaiting r | cancelling r => cases r <;> simp [stage, Round.base]
  | stopping | returned => simp [stage]

/-- A task that has ended is done; and if the caller was not interrupted, a task that is done has
ended. -/
structure ShutdownTask.Sound (interrupted : Bool) (t : ShutdownTask δ) : Prop where
  done : t.phase = .ended → t.future.isDone = true
  ended : interrupted = false → t.future.isDone = true → t.phase = .ended

/-- The invariant of a shutdown. -/
structure InShutdown [LinearOrder δ] (s : Shutdown δ) : Prop where
  /-- Each element of an iteration is submitted once. -/
  iterating : ∀ r it, s.point = .submitting r it → it.Visits s.members ∧ s.stayed ⊆ it.stays ∧
    it.visited = (s.tasks r).map (·.descriptor) ∧ ∀ d ∈ it.next, d ∈ s.known
  nodup : ∀ r, ((s.tasks r).map (·.descriptor)).Nodup
  /-- A round that has not begun has no tasks. -/
  later : ∀ r : Round, s.point.stage ≤ r.base → s.tasks r = []
  /-- What has stayed is submitted in a round that has come to wait. -/
  submitted : ∀ r : Round, r.base + 2 ≤ s.point.stage →
    ∀ d ∈ s.stayed, d ∈ (s.tasks r).map (·.descriptor)
  /-- Without an interrupt, the tasks are done when the wait is over. -/
  awaited : ∀ r : Round, s.interrupted = false → r.base + 3 ≤ s.point.stage →
    ∀ t ∈ s.tasks r, t.future.isDone = true
  cancelled : ∀ r k, s.point = .cancelling r k →
    ∀ j t, j < k → (s.tasks r)[j]? = some t → t.future.isDone = true
  /-- The tasks of a round are done when it is over. -/
  settled : ∀ r : Round, r.base + 4 ≤ s.point.stage → ∀ t ∈ s.tasks r, t.future.isDone = true
  sound : ∀ r, ∀ t ∈ s.tasks r, t.Sound s.interrupted
  stayed : s.point ≠ .returned → s.stayed ⊆ s.members
  known : s.members ⊆ s.known ∧ ∀ r, ∀ t ∈ s.tasks r, t.descriptor ∈ s.known

section Invariant

variable [LinearOrder δ] {s s' : Shutdown δ} {a : ShutdownAction δ} {t t' : ShutdownTask δ}
  {r : Round} {k : ℕ}

omit [LinearOrder δ] in
theorem Shutdown.setTasks_self {tasks : List (ShutdownTask δ)} :
    (s.setTasks r tasks).tasks r = tasks := Function.update_self ..

omit [LinearOrder δ] in
theorem Shutdown.setTasks_of_ne {tasks : List (ShutdownTask δ)} {q : Round} (h : q ≠ r) :
    (s.setTasks r tasks).tasks q = s.tasks q := Function.update_of_ne h ..

omit [LinearOrder δ] in
theorem map_descriptor_set {tasks : List (ShutdownTask δ)} (ht : tasks[k]? = some t)
    (hd : t'.descriptor = t.descriptor) :
    (tasks.set k t').map (·.descriptor) = tasks.map (·.descriptor) := by
  have hk : (tasks.map (·.descriptor))[k]? = some t'.descriptor := by
    rw [List.getElem?_map, ht, Option.map_some, hd]
  rw [List.map_set]
  refine List.ext_getElem? fun j => ?_
  rw [List.getElem?_set]
  split
  · next hjk =>
    subst hjk
    rw [hk, if_pos (List.getElem?_eq_some_iff.mp hk).1]
  · rfl

namespace InShutdown

/-- A task that goes on keeps the invariant. -/
theorem setTask (hi : InShutdown s) (ht : (s.tasks r)[k]? = some t)
    (hd : t'.descriptor = t.descriptor)
    (hdone : t.future.isDone = true → t'.future.isDone = true)
    (hsound : t'.Sound s.interrupted) :
    InShutdown (s.setTasks r ((s.tasks r).set k t')) := by
  have hmem : t ∈ s.tasks r := List.mem_of_getElem? ht
  have hmap (q : Round) : ((s.setTasks r ((s.tasks r).set k t')).tasks q).map (·.descriptor) =
      (s.tasks q).map (·.descriptor) := by
    by_cases hq : q = r
    · rw [hq, Shutdown.setTasks_self, map_descriptor_set ht hd]
    · rw [Shutdown.setTasks_of_ne hq]
  -- What holds of every task of a round, and of the changed one, holds of every task after it.
  have hall {q : Round} {P : ShutdownTask δ → Prop} (hP : ∀ u ∈ s.tasks q, P u)
      (hP' : q = r → P t') : ∀ u ∈ (s.setTasks r ((s.tasks r).set k t')).tasks q, P u := by
    intro u hu
    by_cases hq : q = r
    · rw [hq, Shutdown.setTasks_self] at hu
      obtain hu | rfl := List.mem_or_eq_of_mem_set hu
      · exact hP u (hq ▸ hu)
      · exact hP' hq
    · rw [Shutdown.setTasks_of_ne hq] at hu
      exact hP u hu
  refine ⟨fun q it hp => ?_, fun q => ?_, fun q hq => ?_, fun q hq d hd => ?_, fun q hs hq => ?_,
    fun q j hp i u hlt hu => ?_, fun q hq => ?_, fun q => ?_, hi.stayed,
    hi.known.1, fun q => ?_⟩
  · rw [hmap]
    exact hi.iterating q it hp
  · rw [hmap]
    exact hi.nodup q
  · by_cases hqr : q = r
    · rw [hqr] at hq
      rw [hi.later r hq] at hmem
      exact absurd hmem List.not_mem_nil
    · rw [Shutdown.setTasks_of_ne hqr]
      exact hi.later q hq
  · rw [hmap]
    exact hi.submitted q hq d hd
  · exact hall (hi.awaited q hs hq) fun hqr => hdone (hi.awaited r hs (hqr ▸ hq) t hmem)
  · by_cases hqr : q = r
    · subst hqr
      rw [Shutdown.setTasks_self, List.getElem?_set] at hu
      split at hu
      · next hik =>
        subst hik
        rw [if_pos (List.getElem?_eq_some_iff.mp ht).1] at hu
        obtain rfl := Option.some.inj hu
        exact hdone (hi.cancelled q j hp _ t hlt ht)
      · exact hi.cancelled q j hp i u hlt hu
    · rw [Shutdown.setTasks_of_ne hqr] at hu
      exact hi.cancelled q j hp i u hlt hu
  · exact hall (hi.settled q hq) fun hqr => hdone (hi.settled r (hqr ▸ hq) t hmem)
  · exact hall (hi.sound q) fun _ => hsound
  · exact hall (hi.known.2 q) fun _ => hd ▸ hi.known.2 r t hmem

/-- `shutdown` comes to its next stage. -/
theorem goOn {p : NetworkShutdownPoint δ} (hi : InShutdown s) (hstage : p.stage = s.point.stage + 1)
    (hiterating : ∀ r it, p = .submitting r it → it.Visits s.members ∧ s.stayed ⊆ it.stays ∧
      it.visited = (s.tasks r).map (·.descriptor) ∧ ∀ d ∈ it.next, d ∈ s.known)
    (hsubmitted : ∀ r : Round, p.stage = r.base + 2 →
      ∀ d ∈ s.stayed, d ∈ (s.tasks r).map (·.descriptor))
    (hawaited : ∀ r : Round, s.interrupted = false → p.stage = r.base + 3 →
      ∀ t ∈ s.tasks r, t.future.isDone = true)
    (hcancelling : ∀ r k, p = .cancelling r k → k = 0)
    (hsettled : ∀ r : Round, p.stage = r.base + 4 →
      ∀ t ∈ s.tasks r, t.future.isDone = true) :
    InShutdown { s with point := p } := by
  have hlt := p.stage_lt
  have hstayed : s.point ≠ .returned := by
    intro h
    have hlast : s.point.stage = 9 := by rw [h]; rfl
    omega
  refine ⟨hiterating, hi.nodup, fun q hq => hi.later q ?_, fun q hq => ?_, fun q hs hq => ?_,
    fun q j hp i u hlt hu => ?_, fun q hq => ?_, hi.sound, fun _ => hi.stayed hstayed, hi.known⟩
  · have hle : p.stage ≤ q.base := hq
    omega
  · have hle : q.base + 2 ≤ p.stage := hq
    obtain hlt | heq := Nat.lt_or_eq_of_le hle
    · exact hi.submitted q (by omega)
    · exact hsubmitted q heq.symm
  · have hle : q.base + 3 ≤ p.stage := hq
    obtain hlt | heq := Nat.lt_or_eq_of_le hle
    · exact hi.awaited q hs (by omega)
    · exact hawaited q hs heq.symm
  · rw [hcancelling q j hp] at hlt
    exact absurd hlt (Nat.not_lt_zero i)
  · have hle : q.base + 4 ≤ p.stage := hq
    obtain hlt | heq := Nat.lt_or_eq_of_le hle
    · exact hi.settled q (by omega)
    · exact hsettled q heq.symm

theorem interrupted (hi : InShutdown s) : InShutdown { s with interrupted := true } :=
  { hi with
    awaited := fun _ h => absurd h (by simp)
    sound := fun r t ht => ⟨(hi.sound r t ht).done, fun h => absurd h (by simp)⟩ }

theorem add (hi : InShutdown s) (d : δ) :
    InShutdown { s with members := insert d s.members, known := insert d s.known } :=
  { hi with
    iterating := fun r it hp =>
      let ⟨hvisits, hstays, hvisited, hnext⟩ := hi.iterating r it hp
      ⟨hvisits.insert d, hstays, hvisited, fun e he => Finset.mem_insert_of_mem (hnext e he)⟩
    stayed := fun hp => (hi.stayed hp).trans (Finset.subset_insert d _)
    known := ⟨Finset.insert_subset_insert d hi.known.1,
      fun r t ht => Finset.mem_insert_of_mem (hi.known.2 r t ht)⟩ }

theorem remove (hi : InShutdown s) (d : δ) :
    InShutdown { s with
      members := s.members.erase d, stayed := s.stayed.erase d, point := s.point.remove d } := by
  have hstage : (s.point.remove d).stage = s.point.stage := by
    cases s.point <;> rfl
  refine ⟨fun r it hp => ?_, hi.nodup, ?_, fun r hr e he => ?_, ?_, fun r k hp => ?_, ?_, hi.sound,
    fun hp => ?_, (Finset.erase_subset d _).trans hi.known.1, hi.known.2⟩
  · obtain ⟨it', hit', rfl⟩ : ∃ it', s.point = .submitting r it' ∧ it = it'.remove d := by
      cases hpoint : s.point <;> simp [hpoint, NetworkShutdownPoint.remove] at hp
      obtain ⟨rfl, rfl⟩ := hp
      exact ⟨_, rfl, rfl⟩
    obtain ⟨hvisits, hstays, hvisited, hnext⟩ := hi.iterating r it' hit'
    exact ⟨hvisits.remove d, Finset.erase_subset_erase d hstays, hvisited, hnext⟩
  · rw [hstage]
    exact hi.later
  · rw [hstage] at hr
    exact hi.submitted r hr e (Finset.mem_of_mem_erase he)
  · rw [hstage]
    exact hi.awaited
  · cases hpoint : s.point <;> simp [hpoint, NetworkShutdownPoint.remove] at hp
    obtain ⟨rfl, rfl⟩ := hp
    exact hi.cancelled _ _ hpoint
  · rw [hstage]
    exact hi.settled
  · refine Finset.erase_subset_erase d (hi.stayed fun hreturned => hp ?_)
    show s.point.remove d = _
    rw [hreturned]
    rfl

/-- A descriptor is submitted. -/
theorem submit {it it' : WeakIteration δ} {next : Option δ} {d : δ} (hi : InShutdown s)
    (hpoint : s.point = .submitting r it) (hit : it.advance s.members next = some (d, it')) :
    InShutdown { s.setTasks r (s.tasks r ++ [⟨d, .ready, false, .pending⟩]) with
      point := .submitting r it' } := by
  obtain ⟨hvisits, hstays, hvisited, hknown⟩ := hi.iterating r it hpoint
  obtain ⟨e, he, hit'⟩ := Option.bind_eq_some_iff.mp hit
  obtain ⟨⟨hnext, -⟩, hit'⟩ := Option.ite_none_right_eq_some.mp hit'
  obtain ⟨rfl, rfl⟩ := Prod.mk.inj (Option.some.inj hit')
  have hvisits' := hvisits.advance hit
  have hmap : (s.tasks r ++ [(⟨e, .ready, false, .pending⟩ : ShutdownTask δ)]).map (·.descriptor) =
      it.visited ++ [e] := by
    rw [List.map_append, ← hvisited]
    rfl
  have hall {q : Round} {P : ShutdownTask δ → Prop} (hP : ∀ u ∈ s.tasks q, P u)
      (hP' : P ⟨e, .ready, false, .pending⟩) :
      ∀ u ∈ (s.setTasks r (s.tasks r ++ [⟨e, .ready, false, .pending⟩])).tasks q, P u := by
    intro u hu
    by_cases hq : q = r
    · rw [hq, Shutdown.setTasks_self] at hu
      obtain hu | hu := List.mem_append.mp hu
      · exact hP u (hq ▸ hu)
      · exact List.mem_singleton.mp hu ▸ hP'
    · rw [Shutdown.setTasks_of_ne hq] at hu
      exact hP u hu
  have hother {q : Round} (hstage : r.base + 1 ≤ q.base ∨ q.base + 2 ≤ r.base + 1) : q ≠ r := by
    rintro rfl
    omega
  refine ⟨fun q it hp => ?_, fun q => ?_, fun q hq => ?_, fun q hq => ?_, fun q hs hq => ?_,
    fun q k hp => ?_, fun q hq => ?_, fun q => ?_, fun _ => ?_, hi.known.1, fun q => ?_⟩
  · obtain ⟨rfl, rfl⟩ := NetworkShutdownPoint.submitting.inj hp
    refine ⟨hvisits', hstays, ?_, fun x hx => hi.known.1 (hnext x hx).1⟩
    rw [Shutdown.setTasks_self, hmap]
  · by_cases hq : q = r
    · rw [hq, Shutdown.setTasks_self, hmap]
      exact hvisits'.nodup
    · rw [Shutdown.setTasks_of_ne hq]
      exact hi.nodup q
  · rw [Shutdown.setTasks_of_ne (hother (.inl hq))]
    exact hi.later q (by rw [hpoint]; exact hq)
  · rw [Shutdown.setTasks_of_ne (hother (.inr hq))]
    exact hi.submitted q (by rw [hpoint]; exact hq)
  · rw [Shutdown.setTasks_of_ne (hother (.inr (Nat.le_of_succ_le hq)))]
    exact hi.awaited q hs (by rw [hpoint]; exact hq)
  · cases hp
  · rw [Shutdown.setTasks_of_ne (hother (.inr (by have : q.base + 4 ≤ r.base + 1 := hq; omega)))]
    exact hi.settled q (by rw [hpoint]; exact hq)
  · exact hall (P := ShutdownTask.Sound s.interrupted) (hi.sound q)
      ⟨nofun, fun _ => nofun⟩
  · exact hi.stayed (by rw [hpoint]; rintro ⟨⟩)
  · exact hall (hi.known.2 q) (hknown e he)

/-- The set is emptied. -/
theorem clear (hi : InShutdown s) (hpoint : s.point = .stopping) :
    InShutdown { s with members := ∅, point := .returned } := by
  have hbase (r : Round) : r.base + 4 ≤ s.point.stage := by
    rw [hpoint]
    cases r <;> simp [Round.base, NetworkShutdownPoint.stage]
  refine ⟨nofun, hi.nodup, fun r hr => ?_, fun r _ => hi.submitted r ?_,
    fun r hs _ => hi.awaited r hs ?_, nofun, fun r _ => hi.settled r (hbase r), hi.sound,
    fun h => absurd rfl h, Finset.empty_subset _, hi.known.2⟩
  · exact absurd (show 9 ≤ r.base from hr) (by cases r <;> decide)
  · exact (Nat.le_add_right _ 2).trans (hbase r)
  · exact (Nat.le_succ _).trans (hbase r)

end InShutdown

/-- One more future is cancelled. -/
theorem InShutdown.cancel (hi : InShutdown s) (hpoint : s.point = .cancelling r k)
    (ht : (s.tasks r)[k]? = some t) :
    InShutdown { s.setTasks r ((s.tasks r).set k t.cancel) with
      point := .cancelling r (k + 1) } := by
  have hmem : t ∈ s.tasks r := List.mem_of_getElem? ht
  have hdone : t.cancel.future.isDone = true := CompletableFuture.isDone_settle
  have hsound : t.cancel.Sound s.interrupted := by
    refine ⟨fun _ => hdone, fun hs _ => ?_⟩
    have hawaited := hi.awaited r hs (by rw [hpoint]; exact Nat.le_refl _) t hmem
    exact (hi.sound r t hmem).ended hs hawaited
  have hi' : InShutdown (s.setTasks r ((s.tasks r).set k t.cancel)) :=
    hi.setTask ht rfl (fun _ => hdone) hsound
  have hstage : (s.setTasks r ((s.tasks r).set k t.cancel)).point.stage =
      (NetworkShutdownPoint.cancelling r (k + 1) : NetworkShutdownPoint δ).stage := by
    show s.point.stage = _
    rw [hpoint]
    rfl
  have hstayed := hi'.stayed (by show s.point ≠ _; rw [hpoint]; rintro ⟨⟩)
  refine ⟨nofun, hi'.nodup, fun q hq => hi'.later q (hstage ▸ hq),
    fun q hq => hi'.submitted q (hstage ▸ hq), fun q hs hq => hi'.awaited q hs (hstage ▸ hq),
    fun q j hp i u hlt hu => ?_, fun q hq => hi'.settled q (hstage ▸ hq), hi'.sound,
    fun _ => hstayed, hi'.known⟩
  obtain ⟨rfl, rfl⟩ := NetworkShutdownPoint.cancelling.inj hp
  obtain hlt | rfl := Nat.lt_or_eq_of_le (Nat.le_of_lt_succ hlt)
  · exact hi'.cancelled r k hpoint i u hlt hu
  · rw [Shutdown.setTasks_self, List.getElem?_set_self
      (List.getElem?_eq_some_iff.mp ht).1] at hu
    obtain rfl := Option.some.inj hu
    exact hdone

/-- A stage after the first of a round tells the round. -/
theorem Round.eq_of_base_add {q r : Round} {m n : ℕ} (h : r.base + m = q.base + n)
    (hm : 1 ≤ m ∧ m ≤ 4) (hn : 1 ≤ n ∧ n ≤ 4) : r = q ∧ m = n := by
  cases q <;> cases r <;> simp only [base] at h <;> first | exact ⟨rfl, by omega⟩ | omega

/-- Every step keeps the invariant. -/
theorem InShutdown.step (hi : InShutdown s) (h : ShutdownStep s a s') : InShutdown s' := by
  cases h with
  | add => exact hi.add _
  | remove => exact hi.remove _
  | @iterate next r it hpoint hit =>
    have hnone : s.tasks r = [] := hi.later r (by rw [hpoint]; exact Nat.le_refl _)
    obtain ⟨⟨hnext, -⟩, hstart⟩ := Option.ite_none_right_eq_some.mp hit
    refine hi.goOn (by rw [hpoint]; rfl) (fun q it' hp => ?_) (fun q hq => ?_)
      (fun q _ hq => ?_) nofun (fun q hq => ?_)
    · obtain ⟨rfl, rfl⟩ := NetworkShutdownPoint.submitting.inj hp
      have hvisits := WeakIteration.Visits.start hit
      obtain rfl := Option.some.inj hstart
      refine ⟨hvisits, hi.stayed (by rw [hpoint]; rintro ⟨⟩), ?_, fun d hd => ?_⟩
      · rw [hnone]
        rfl
      · exact hi.known.1 (hnext d hd).1
    all_goals exact absurd (Round.eq_of_base_add hq (by decide) (by decide)).2 (by decide)
  | submit hpoint hit => exact hi.submit hpoint hit
  | @endLoop next r it hpoint hend =>
    obtain ⟨hvisits, hstays, hvisited, -⟩ := hi.iterating r it hpoint
    refine hi.goOn (by rw [hpoint]; rfl) nofun (fun q hq d hd => ?_) (fun q _ hq => ?_) nofun
      (fun q hq => ?_)
    · obtain ⟨rfl, -⟩ := Round.eq_of_base_add hq (by decide) (by decide)
      rw [← hvisited]
      exact hvisits.subset_visited hend d (hstays hd)
    all_goals exact absurd (Round.eq_of_base_add hq (by decide) (by decide)).2 (by decide)
  | @get next r hpoint hdone =>
    refine hi.goOn (by rw [hpoint]; rfl) nofun (fun q hq => ?_) (fun q _ hq => ?_) ?_
      (fun q hq => ?_)
    · exact absurd (Round.eq_of_base_add hq (by decide) (by decide)).2 (by decide)
    · obtain ⟨rfl, -⟩ := Round.eq_of_base_add hq (by decide) (by decide)
      exact hdone
    · rintro q k hp
      exact (NetworkShutdownPoint.cancelling.inj hp).2.symm
    · exact absurd (Round.eq_of_base_add hq (by decide) (by decide)).2 (by decide)
  | cancel hpoint ht => exact hi.cancel hpoint ht
  | @endRound next r k hpoint hk =>
    have hstage : (r.next : NetworkShutdownPoint δ).stage = r.base + 4 := by
      cases r <;> rfl
    refine hi.goOn (by rw [hpoint, hstage]; rfl) (fun q it hp => ?_) (fun q hq => ?_)
      (fun q _ hq => ?_) (fun q j hp => ?_) (fun q hq t ht => ?_)
    · cases r <;> cases hp
    · rw [hstage] at hq
      exact absurd (Round.eq_of_base_add hq (by decide) (by decide)).2 (by decide)
    · rw [hstage] at hq
      exact absurd (Round.eq_of_base_add hq (by decide) (by decide)).2 (by decide)
    · cases r <;> cases hp
    · rw [hstage] at hq
      obtain ⟨rfl, -⟩ := Round.eq_of_base_add hq (by decide) (by decide)
      obtain ⟨j, hj⟩ := List.mem_iff_getElem?.mp ht
      have hlt : j < (s.tasks r).length := (List.getElem?_eq_some_iff.mp hj).1
      have hle : (s.tasks r).length ≤ k := List.getElem?_eq_none_iff.mp hk
      exact hi.cancelled r k hpoint j t (by omega) hj
  | clear hpoint => exact hi.clear hpoint
  | @interrupt r hpoint =>
    refine hi.interrupted.goOn (by rw [hpoint]; rfl) nofun (fun q hq => ?_) (fun q h => ?_) ?_
      (fun q hq => ?_)
    · exact absurd (Round.eq_of_base_add hq (by decide) (by decide)).2 (by decide)
    · cases h
    · rintro q k hp
      exact (NetworkShutdownPoint.cancelling.inj hp).2.symm
    · exact absurd (Round.eq_of_base_add hq (by decide) (by decide)).2 (by decide)
  | @begin r k t t' ht hbegin =>
    obtain ⟨⟨hready, hpending⟩, h⟩ := Option.ite_none_right_eq_some.mp hbegin
    obtain rfl := Option.some.inj h
    refine hi.setTask ht rfl id ⟨nofun, fun _ hdone => ?_⟩
    exact absurd (hpending.symm.trans hdone) (by decide)
  | @finish r k outcome t t' ht hfinish =>
    obtain ⟨hrunning, h⟩ := Option.ite_none_right_eq_some.mp hfinish
    obtain rfl := Option.some.inj h
    have hdone := outcome.isDone_complete t.future
    exact hi.setTask ht rfl (fun _ => hdone) ⟨fun _ => hdone, fun _ _ => rfl⟩

/-- **The invariant, step by step.** -/
theorem inShutdown_of_reachable (h : (shutdownMachine δ).Reachable s) : InShutdown s := by
  refine h.invariant (fun s hinit => ?_) fun s a s' _ hi _ hs => hi.step (shutdownStep_of_step hs)
  have hs : s = ⟨s.members, fun _ => [], .called .kill, s.members, s.members, false⟩ := hinit
  rw [hs]
  exact ⟨nofun, fun _ => List.nodup_nil, fun _ _ => rfl, (fun r hr => by cases r <;> cases hr),
    fun _ _ _ _ ht => absurd ht List.not_mem_nil, nofun,
    fun _ _ _ ht => absurd ht List.not_mem_nil, fun _ _ ht => absurd ht List.not_mem_nil,
    fun _ => Finset.Subset.refl _, Finset.Subset.refl _,
    fun _ _ ht => absurd ht List.not_mem_nil⟩

end Invariant

/-! ### What is promised -/

/-- What is promised of every state of a shutdown. -/
structure ShutdownSafe [LinearOrder δ] (host : δ → Option η) (s : Shutdown δ) : Prop where
  /-- No descriptor is killed twice, and none is asked for its host twice. -/
  once : ∀ r, ((s.tasks r).map (·.descriptor)).Nodup
  /-- Nothing is done to a descriptor that was never in the network meanwhile. -/
  known : ∀ r, ∀ t ∈ s.tasks r, t.descriptor ∈ s.known
  /-- No host is closed, or `close` called of one, before every descriptor that stayed in the
  network has a task that kills it, and every such task has ended, unless the caller was
  interrupted. -/
  killedFirst : s.interrupted = false → s.tasks .close ≠ [] →
    (∀ d ∈ s.stayed, ∃ t ∈ s.tasks .kill, t.descriptor = d) ∧
      ∀ t ∈ s.tasks .kill, t.phase = .ended
  /-- In the end each descriptor that stayed had a task in both rounds, and no task is pending. -/
  settled : s.point = .returned → ∀ r, (∀ d ∈ s.stayed, ∃ t ∈ s.tasks r, t.descriptor = d) ∧
    ∀ t ∈ s.tasks r, t.future.isDone = true
  /-- In the end no task is still running, and each descriptor that stayed has a task in which
  `close` threw something, or its host is closed, unless the caller was interrupted. -/
  closed : s.point = .returned → s.interrupted = false →
    (∀ r, ∀ t ∈ s.tasks r, t.phase = .ended) ∧ ∀ d ∈ s.stayed,
      ∃ t ∈ s.tasks .close, t.descriptor = d ∧
        (t.threw = true ∨ ∀ h ∈ host d, h ∈ s.closedHosts host)
  /-- It is never stuck: the caller or a task can go on. -/
  goesOn : s.point ≠ .returned →
    ∃ a s', a.isOwn = true ∧ (shutdownMachine δ).step s a = some s'

section Main

variable [LinearOrder δ] {s : Shutdown δ} {host : δ → Option η}

/-- A task that is pending can go on. -/
theorem exists_taskStep {r : Round} {t : ShutdownTask δ} (hsound : t.Sound s.interrupted)
    (ht : t ∈ s.tasks r) (hpending : t.future.isDone = false) :
    ∃ k s', (shutdownMachine δ).step s (.begin r k) = some s' ∨
      (shutdownMachine δ).step s (.finish r k .returns) = some s' := by
  obtain ⟨k, hk⟩ := List.mem_iff_getElem?.mp ht
  cases hphase : t.phase with
  | ready =>
    have hbegin : t.begin = some { t with phase := .running } := if_pos ⟨hphase, hpending⟩
    refine ⟨k, s.setTasks r ((s.tasks r).set k { t with phase := .running }), .inl ?_⟩
    show s.taskStep r k ShutdownTask.begin = _
    rw [Shutdown.taskStep, hk, Option.bind_some, hbegin, Option.map_some]
  | running =>
    have hfinish : t.finish .returns =
        some { t with phase := .ended, threw := false, future := t.future.complete () } :=
      if_pos hphase
    refine ⟨k, s.setTasks r ((s.tasks r).set k
      { t with phase := .ended, threw := false, future := t.future.complete () }), .inr ?_⟩
    show s.taskStep r k (ShutdownTask.finish .returns) = _
    rw [Shutdown.taskStep, hk, Option.bind_some, hfinish, Option.map_some]
  | ended =>
    rw [hsound.done hphase] at hpending
    cases hpending

/-- A shutdown is never stuck. -/
theorem InShutdown.exists_step (hi : InShutdown s) (hreturned : s.point ≠ .returned) :
    ∃ a s', a.isOwn = true ∧ (shutdownMachine δ).step s a = some s' := by
  have hcaller {next : Option δ} {s' : Shutdown δ} (h : s.callerStep next = some s') :
      ∃ a s', a.isOwn = true ∧ (shutdownMachine δ).step s a = some s' :=
    ⟨.caller next, s', rfl, h⟩
  cases hpoint : s.point with
  | called r =>
    obtain ⟨next, hnext⟩ := WeakIteration.exists_mayFollow (Finset.Subset.refl s.members) none
    refine @hcaller next { s with point := .submitting r ⟨s.members, [], next⟩ } ?_
    rw [Shutdown.callerStep, hpoint]
    show (WeakIteration.start s.members next).map _ = _
    rw [WeakIteration.start, if_pos hnext, Option.map_some]
  | submitting r it =>
    by_cases hend : it.next = none
    · refine @hcaller none { s with point := .awaiting r } ?_
      rw [Shutdown.callerStep, hpoint]
      exact if_pos hend
    · obtain ⟨hvisits, -⟩ := hi.iterating r it hpoint
      obtain ⟨next, ⟨d, it'⟩, hadvance⟩ := hvisits.exists_advance hend
      refine @hcaller next { s.setTasks r (s.tasks r ++ [⟨d, .ready, false, .pending⟩]) with
        point := .submitting r it' } ?_
      rw [Shutdown.callerStep, hpoint]
      show (if it.next = none then _ else _) = _
      rw [if_neg hend, hadvance, Option.map_some]
  | awaiting r =>
    by_cases hdone : ∀ t ∈ s.tasks r, t.future.isDone = true
    · refine @hcaller none { s with point := .cancelling r 0 } ?_
      rw [Shutdown.callerStep, hpoint]
      exact if_pos hdone
    · push Not at hdone
      obtain ⟨t, ht, hpending⟩ := hdone
      obtain ⟨k, s', h | h⟩ := exists_taskStep (hi.sound r t ht) ht (Bool.eq_false_iff.mpr hpending)
      · exact ⟨.begin r k, s', rfl, h⟩
      · exact ⟨.finish r k .returns, s', rfl, h⟩
  | cancelling r k =>
    cases ht : (s.tasks r)[k]? with
    | none =>
      refine @hcaller none { s with point := r.next } ?_
      simp only [Shutdown.callerStep, hpoint, ht]
    | some t =>
      refine @hcaller none { s.setTasks r ((s.tasks r).set k t.cancel) with
        point := .cancelling r (k + 1) } ?_
      simp only [Shutdown.callerStep, hpoint, ht]
  | stopping =>
    refine @hcaller none { s with members := ∅, point := .returned } ?_
    rw [Shutdown.callerStep, hpoint]
  | returned => exact absurd hpoint hreturned

/-- **A shutdown is safe** in every state that it can reach, whatever others do meanwhile. -/
theorem shutdownSafe_of_reachable (host : δ → Option η) (h : (shutdownMachine δ).Reachable s) :
    ShutdownSafe host s := by
  have hi := inShutdown_of_reachable h
  have hsubmitted (r : Round) (hr : r.base + 2 ≤ s.point.stage) (d : δ) (hd : d ∈ s.stayed) :
      ∃ t ∈ s.tasks r, t.descriptor = d :=
    List.mem_map.mp (hi.submitted r hr d hd)
  have hended (r : Round) (hs : s.interrupted = false) (hr : r.base + 3 ≤ s.point.stage) :
      ∀ t ∈ s.tasks r, t.phase = .ended :=
    fun t ht => (hi.sound r t ht).ended hs (hi.awaited r hs hr t ht)
  have hlast (r : Round) (hpoint : s.point = .returned) : r.base + 4 ≤ s.point.stage := by
    rw [hpoint]
    cases r <;> simp [Round.base, NetworkShutdownPoint.stage]
  refine ⟨hi.nodup, hi.known.2, fun hs hne => ?_, fun hpoint r => ?_, fun hpoint hs => ?_,
    hi.exists_step⟩
  · have hstage : 5 ≤ s.point.stage := by
      by_contra hlt
      exact hne (hi.later .close (Nat.le_of_lt_succ (Nat.lt_of_not_le hlt)))
    exact ⟨hsubmitted .kill (Nat.le_trans (by decide) hstage),
      hended .kill hs (Nat.le_trans (by decide) hstage)⟩
  · have hstage := hlast r hpoint
    exact ⟨hsubmitted r (by omega), hi.settled r hstage⟩
  · refine ⟨fun r => hended r hs (by have := hlast r hpoint; omega), fun d hd => ?_⟩
    have hstage := hlast .close hpoint
    obtain ⟨t, ht, rfl⟩ := hsubmitted .close (by omega) d hd
    refine ⟨t, ht, rfl, ?_⟩
    cases hthrew : t.threw with
    | true => exact .inl rfl
    | false =>
      refine .inr fun h hh => List.mem_filterMap.mpr ⟨t, ht, ?_⟩
      rw [if_pos ⟨hended .close hs (by omega) t ht, hthrew⟩]
      exact hh

/-- Two descriptors; while the first is killed, the second is removed, and another is added, whose
host cannot be closed. -/
def shutDownTwo : List (ShutdownAction ℕ) :=
  [.caller (some 1), .caller (some 2), .begin .kill 0, .remove 2, .add 3, .caller none,
    .caller none, .finish .kill 0 .returns, .begin .kill 1,
    .finish .kill 1 (.throws (.thrown .error)), .caller none, .caller none, .caller none,
    .caller none, .caller (some 1), .caller (some 3), .caller none, .caller none, .begin .close 0,
    .finish .close 0 .returns, .begin .close 1, .finish .close 1 .logs, .caller none, .caller none,
    .caller none, .caller none, .caller none]

theorem shutdownSafe_of_reachable_two :
    ∃ s : Shutdown ℕ, s.point = .returned ∧ s.stayed = {1} ∧
      (s.tasks .kill).map (·.descriptor) = [1, 2] ∧ s.closedHosts some = [1] ∧
      ShutdownSafe some s := by
  obtain ⟨s, hrun, hs⟩ := (shutdownMachine ℕ).exists_run_of_exec
    ⟨{1, 2}, fun _ => [], .called .kill, {1, 2}, {1, 2}, false⟩ shutDownTwo
    (fun s => s.point = .returned ∧ s.stayed = {1} ∧
      (s.tasks .kill).map (·.descriptor) = [1, 2] ∧ s.closedHosts some = [1]) (by decide)
  obtain ⟨hpoint, hstayed, htasks, hclosed⟩ := of_decide_eq_true hs
  refine ⟨s, hpoint, hstayed, htasks, hclosed, shutdownSafe_of_reachable _ ⟨_, ?_, hrun⟩⟩
  show _ = _
  rfl

end Main

end Shabdiz
