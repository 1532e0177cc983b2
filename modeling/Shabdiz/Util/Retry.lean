import Shabdiz.Concurrency.CompletableFuture
import Shabdiz.Concurrency.Machine
import Shabdiz.Util.Duration

/-!
# Retrying a task until a timeout

`TimeoutExecutorService.retry` submits a wrapper that calls the task again and again, waits for it
with a timeout, and in the end cancels it. The cancellation interrupts the thread that runs the
wrapper, and the wrapper's loop is to notice the interruption: it tests the thread's interrupt flag
before every invocation. But the flag belongs to the thread, and a blocking call inside the task
clears it when it throws `InterruptedException`, which the loop's own `catch (Exception e)` takes
for one more failure.

The machine has the caller of `retry` and the thread that runs the wrapper. What the task does
within an invocation is left open: it may clear or set the flag of its thread any number of times,
and return, throw an `Exception` or throw an `Error`. `FutureTask.cancel` marks the future first
and interrupts the thread afterwards.

## Main definitions

* `RetryPoint`, `WrapperPoint`, `Retry` — where the two threads are, and what they share
* `retryMachine` — one call of `retry`, for a retry interval and a maximum count
* `StopsAfterReturn` — at most one invocation begins after `retry` has returned, and it is the last
* `Swallows` — an invocation that began then fails with the flag clear

## Main results

* `retryStep_of_step` — what each action does
* `stopsAfterReturn_of_reachableOf` — the wrapper stops if no invocation swallows the interruption
* `exists_two_of_swallows` — and goes on if one does
-/

namespace Shabdiz

/-- The control points of `retry`. -/
inductive RetryPoint where
  | submit
  | waiting
  /-- `future_result.cancel(true)`. -/
  | cancelling
  /-- The future is cancelled and its thread is still to be interrupted. -/
  | interrupting
  | purging
  | returned
deriving DecidableEq

/-- The control points of the thread that runs the wrapper. -/
inductive WrapperPoint where
  /-- The wrapper has not been submitted. -/
  | absent
  | queued
  /-- `isInterrupted()`. -/
  | testInterrupted
  /-- `hasReachedMaxRetryCount()`. -/
  | testCount
  /-- Inside `task.call()`. -/
  | calling
  | caught
  /-- About to sleep. -/
  | delay
  | sleeping
  /-- The loop is over. -/
  | ended
  | finished
deriving DecidableEq

/-- The state of one call of `retry`. -/
structure Retry where
  caller : RetryPoint
  wrapper : WrapperPoint
  future : CompletableFuture Unit Unit
  /-- The interrupt flag of the thread that runs the wrapper. -/
  interrupted : Bool
  retryCount : Nat
  /-- How many invocations have begun since `retry` returned. No code reads it. -/
  begunAfter : Nat
deriving DecidableEq

/-- What happens next. -/
inductive RetryAction where
  /-- The caller goes on; a wait ends because the future is done. -/
  | caller
  /-- The submission is rejected, or the wait ends with a timeout or an interruption. -/
  | callerThrows
  /-- The thread of the wrapper goes on; an invocation returns, a sleep is over. -/
  | wrapper
  /-- The invocation throws an `Exception`, or the sleep an `InterruptedException`. -/
  | throwsException
  /-- The invocation throws an `Error`. -/
  | throwsError
  /-- The invocation clears the flag of its thread. -/
  | clearFlag
  /-- The invocation sets the flag of its thread. -/
  | setFlag
deriving DecidableEq

namespace Retry

/-- The loop's part in the wrapper: what `TaskRetryWrapper` was constructed with. -/
structure Wrapper where
  maxRetryCount : Int32
  retryInterval : Int64
  unit : TimeUnit

/-- `interval_millis > 0`, the interval being converted by `setRetryInterval`. -/
def Wrapper.isIntervalSpecified (w : Wrapper) : Bool :=
  0 < (TimeUnit.milliseconds.convert w.retryInterval w.unit).toInt

/-- As many retries were counted as there may be. -/
def Wrapper.hasReachedMaxRetryCount (w : Wrapper) (retryCount : Nat) : Bool :=
  w.maxRetryCount.toInt ≤ retryCount

/-- No call has been made. -/
def initial : Retry := ⟨.submit, .absent, .pending, false, 0, 0⟩

/-- One step of the caller. -/
def nextCaller (throws : Bool) (s : Retry) : Option Retry :=
  match s.caller, throws with
  | .submit, false => some { s with caller := .waiting, wrapper := .queued }
  | .submit, true => some { s with caller := .returned }
  | .waiting, false => if s.future.isDone then some { s with caller := .cancelling } else none
  | .waiting, true => some { s with caller := .cancelling }
  | .cancelling, false =>
    if s.future.isDone then some { s with caller := .purging }
    else some { s with caller := .interrupting, future := s.future.cancel }
  -- There is a thread to interrupt only if one has begun to run the wrapper.
  | .interrupting, false =>
    some { s with
      caller := .purging
      interrupted := s.interrupted || decide (s.wrapper ≠ .queued) }
  | .purging, false => some { s with caller := .returned }
  | _, _ => none

/-- The loop goes on to `task.call()`. -/
def invoke (s : Retry) : Retry :=
  { s with
    wrapper := .calling
    begunAfter := if s.caller = .returned then s.begunAfter + 1 else s.begunAfter }

/-- One step of the thread of the wrapper, unless an exception is thrown. -/
def nextWrapper (w : Wrapper) (s : Retry) : Option Retry :=
  match s.wrapper with
  | .absent => none
  | .queued =>
    some { s with wrapper := if s.future.isDone then .finished else .testInterrupted }
  | .testInterrupted => some { s with wrapper := if s.interrupted then .ended else .testCount }
  | .testCount =>
    if w.hasReachedMaxRetryCount s.retryCount then some { s with wrapper := .ended }
    else some s.invoke
  | .calling => some { s with wrapper := .ended }
  | .caught =>
    some { s with
      wrapper := if w.isIntervalSpecified then .delay else .testInterrupted
      retryCount := s.retryCount + 1 }
  -- `Thread.sleep` throws at once if the flag is set, and clears it.
  | .delay =>
    if s.interrupted then some { s with wrapper := .ended, interrupted := false }
    else some { s with wrapper := .sleeping }
  | .sleeping => some { s with wrapper := .testInterrupted }
  | .ended => some { s with wrapper := .finished, future := s.future.complete () }
  | .finished => none

/-- One step of a call of `retry`. -/
def step (w : Wrapper) (s : Retry) : RetryAction → Option Retry
  | .caller => s.nextCaller false
  | .callerThrows => s.nextCaller true
  | .wrapper => s.nextWrapper w
  | .throwsException =>
    match s.wrapper with
    | .calling => some { s with wrapper := .caught }
    | .sleeping =>
      if s.interrupted then some { s with wrapper := .ended, interrupted := false } else none
    | _ => none
  | .throwsError => if s.wrapper = .calling then some { s with wrapper := .ended } else none
  | .clearFlag => if s.wrapper = .calling then some { s with interrupted := false } else none
  | .setFlag => if s.wrapper = .calling then some { s with interrupted := true } else none

end Retry

/-- A call of `retry`, with any task. -/
def retryMachine (w : Retry.Wrapper) : Machine Retry RetryAction where
  init s := s = .initial
  step := Retry.step w

/-! ### What an action does -/

/-- **What each step of the thread of the wrapper does.** -/
inductive WrapperStep (w : Retry.Wrapper) (s : Retry) : RetryAction → Retry → Prop where
  | start (h : s.wrapper = .queued) :
    WrapperStep w s .wrapper
      { s with wrapper := if s.future.isDone then .finished else .testInterrupted }
  | noticed (h : s.wrapper = .testInterrupted) (hi : s.interrupted = true) :
    WrapperStep w s .wrapper { s with wrapper := .ended }
  | unnoticed (h : s.wrapper = .testInterrupted) (hi : s.interrupted = false) :
    WrapperStep w s .wrapper { s with wrapper := .testCount }
  | reached (h : s.wrapper = .testCount) (hc : w.hasReachedMaxRetryCount s.retryCount = true) :
    WrapperStep w s .wrapper { s with wrapper := .ended }
  | invoke (h : s.wrapper = .testCount) (hc : w.hasReachedMaxRetryCount s.retryCount = false) :
    WrapperStep w s .wrapper s.invoke
  | returns {a : RetryAction} (h : s.wrapper = .calling) :
    WrapperStep w s a { s with wrapper := .ended }
  | fails (h : s.wrapper = .calling) :
    WrapperStep w s .throwsException { s with wrapper := .caught }
  | flag {a : RetryAction} (h : s.wrapper = .calling) (flag : Bool) :
    WrapperStep w s a { s with interrupted := flag }
  | count (h : s.wrapper = .caught) :
    WrapperStep w s .wrapper
      { s with
        wrapper := if w.isIntervalSpecified then .delay else .testInterrupted
        retryCount := s.retryCount + 1 }
  | sleepThrows {a : RetryAction} (h : s.wrapper = .delay ∨ s.wrapper = .sleeping)
      (hi : s.interrupted = true) :
    WrapperStep w s a { s with wrapper := .ended, interrupted := false }
  | sleep (h : s.wrapper = .delay) (hi : s.interrupted = false) :
    WrapperStep w s .wrapper { s with wrapper := .sleeping }
  | wake (h : s.wrapper = .sleeping) :
    WrapperStep w s .wrapper { s with wrapper := .testInterrupted }
  | settle (h : s.wrapper = .ended) :
    WrapperStep w s .wrapper { s with wrapper := .finished, future := s.future.complete () }

section Step

variable {w : Retry.Wrapper} {s t : Retry} {a : RetryAction}

/-- The caller makes no step once it has returned, and begins no invocation. -/
theorem Retry.nextCaller_frame {throws : Bool} (h : s.nextCaller throws = some t) :
    s.caller ≠ .returned ∧ t.begunAfter = s.begunAfter := by
  refine ⟨fun hreturned => ?_, ?_⟩
  · simp [nextCaller, hreturned] at h
  · simp only [nextCaller] at h
    split at h <;> (try split at h) <;> cases h <;> rfl

theorem Retry.wrapperStep_of_nextWrapper (h : s.nextWrapper w = some t) :
    WrapperStep w s .wrapper t := by
  cases hw : s.wrapper with
  | absent | finished => simp [nextWrapper, hw] at h
  | queued =>
    obtain rfl : _ = t := by simpa [nextWrapper, hw] using h
    exact .start hw
  | testInterrupted =>
    simp only [nextWrapper, hw] at h
    obtain rfl := Option.some.inj h
    by_cases hi : s.interrupted = true
    · rw [if_pos hi]
      exact .noticed hw hi
    · rw [if_neg hi]
      exact .unnoticed hw (Bool.eq_false_iff.mpr hi)
  | testCount =>
    cases hc : w.hasReachedMaxRetryCount s.retryCount with
    | true =>
      obtain rfl : _ = t := by simpa [nextWrapper, hw, hc] using h
      exact .reached hw hc
    | false =>
      obtain rfl : _ = t := by simpa [nextWrapper, hw, hc] using h
      exact .invoke hw hc
  | calling =>
    obtain rfl : _ = t := by simpa [nextWrapper, hw] using h
    exact .returns hw
  | caught =>
    obtain rfl : _ = t := by simpa [nextWrapper, hw] using h
    exact .count hw
  | delay =>
    simp only [nextWrapper, hw] at h
    by_cases hi : s.interrupted = true
    · rw [if_pos hi] at h
      obtain rfl := Option.some.inj h
      exact .sleepThrows (.inl hw) hi
    · rw [if_neg hi] at h
      obtain rfl := Option.some.inj h
      exact .sleep hw (Bool.eq_false_iff.mpr hi)
  | sleeping =>
    obtain rfl : _ = t := by simpa [nextWrapper, hw] using h
    exact .wake hw
  | ended =>
    obtain rfl : _ = t := by simpa [nextWrapper, hw] using h
    exact .settle hw

/-- The list of what actions do is complete. -/
theorem retryStep_of_step (h : (retryMachine w).step s a = some t) :
    (s.caller ≠ .returned ∧ t.begunAfter = s.begunAfter) ∨ WrapperStep w s a t := by
  simp only [retryMachine] at h
  cases a with
  | caller | callerThrows => exact .inl (Retry.nextCaller_frame h)
  | wrapper => exact .inr (Retry.wrapperStep_of_nextWrapper h)
  | throwsException =>
    right
    simp only [Retry.step] at h
    split at h
    · cases h
      exact .fails ‹_›
    · split at h <;> cases h
      exact .sleepThrows (.inr ‹_›) ‹_›
    · cases h
  | throwsError =>
    simp only [Retry.step] at h
    split at h <;> cases h
    exact .inr (.returns ‹_›)
  | clearFlag | setFlag =>
    simp only [Retry.step] at h
    split at h <;> cases h
    exact .inr (.flag ‹_› _)

end Step

/-! ### Stopping -/

namespace Retry

/-- The loop is over. -/
def IsOver (s : Retry) : Prop := s.wrapper = .ended ∨ s.wrapper = .finished

/-- The loop begins no further invocation: it will notice that the thread is interrupted or that
the maximum count is reached. -/
def Ending (w : Wrapper) (s : Retry) : Prop :=
  match s.wrapper with
  | .caught => s.interrupted = true ∨ w.hasReachedMaxRetryCount (s.retryCount + 1) = true
  | .delay | .sleeping | .testInterrupted =>
    s.interrupted = true ∨ w.hasReachedMaxRetryCount s.retryCount = true
  | .testCount => w.hasReachedMaxRetryCount s.retryCount = true
  | .ended | .finished => True
  | _ => False

end Retry

/-- At most one invocation has begun since `retry` returned, and when that one has ended the loop
ends without another. -/
def StopsAfterReturn (w : Retry.Wrapper) (s : Retry) : Prop :=
  s.begunAfter ≤ 1 ∧
    (s.begunAfter = 1 → s.wrapper ≠ .calling →
      (retryMachine w).Inevitable (fun t => t.IsOver ∧ t.begunAfter = 1) s)

/-- An invocation that began after `retry` had returned ends with an `Exception` while the flag of
its thread is clear, and the maximum count is not reached with it. -/
def Swallows (w : Retry.Wrapper) (s : Retry) (a : RetryAction) : Prop :=
  a = .throwsException ∧ s.wrapper = .calling ∧ 0 < s.begunAfter ∧ s.interrupted = false ∧
    w.hasReachedMaxRetryCount (s.retryCount + 1) = false

section Stopping

variable {w : Retry.Wrapper} {s t : Retry} {a : RetryAction}

/-- What a loop that is ending does: it keeps ending, and begins no invocation. -/
theorem WrapperStep.ending (hs : WrapperStep w s a t) (h : s.Ending w) :
    t.Ending w ∧ t.begunAfter = s.begunAfter ∧ t.caller = s.caller := by
  cases hs with
  | start hw | returns hw | fails hw | flag hw => simp [Retry.Ending, hw] at h
  | noticed | reached => exact ⟨trivial, rfl, rfl⟩
  | unnoticed hw hi =>
    simp only [Retry.Ending, hw, hi, Bool.false_eq_true, false_or] at h
    exact ⟨h, rfl, rfl⟩
  | invoke hw hc => simp [Retry.Ending, hw, hc] at h
  | count hw =>
    simp only [Retry.Ending, hw] at h
    refine ⟨?_, rfl, rfl⟩
    cases w.isIntervalSpecified <;> exact h
  | sleepThrows => exact ⟨trivial, rfl, rfl⟩
  | sleep hw hi | wake hw =>
    simp only [Retry.Ending, hw] at h
    exact ⟨h, rfl, rfl⟩
  | settle => exact ⟨trivial, rfl, rfl⟩

/-- How many steps the loop is from its end, at most. -/
def Retry.distance (s : Retry) : Nat :=
  match s.wrapper with
  | .caught => 5
  | .delay => 4
  | .sleeping => 3
  | .testInterrupted => 2
  | .testCount => 1
  | _ => 0

theorem WrapperStep.distance_lt (hs : WrapperStep w s a t) (h : s.Ending w) (ho : ¬ s.IsOver) :
    t.distance < s.distance := by
  cases hs with
  | start hw | returns hw | fails hw | flag hw => simp [Retry.Ending, hw] at h
  | noticed hw | unnoticed hw | reached hw | sleep hw | wake hw => simp [Retry.distance, hw]
  | invoke hw hc => simp [Retry.Ending, hw, hc] at h
  | count hw => cases w.isIntervalSpecified <;> simp [Retry.distance, hw]
  | sleepThrows hw => rcases hw with hw | hw <;> simp [Retry.distance, hw]
  | settle hw => exact absurd (.inl hw) ho

/-- A loop that is ending can go on until it is over. -/
theorem Retry.exists_step_of_ending (h : s.Ending w) (ho : ¬ s.IsOver) :
    ∃ a t, (retryMachine w).step s a = some t := by
  refine ⟨.wrapper, ?_⟩
  show ∃ t, s.nextWrapper w = some t
  cases hw : s.wrapper with
  | absent | queued | calling => simp [Ending, hw] at h
  | testInterrupted | caught | sleeping => simp [nextWrapper, hw]
  | testCount => cases hc : w.hasReachedMaxRetryCount s.retryCount <;> simp [nextWrapper, hw, hc]
  | delay => cases hi : s.interrupted <;> simp [nextWrapper, hw, hi]
  | ended => exact absurd (.inl hw) ho
  | finished => exact absurd (.inr hw) ho

/-- **A loop that is ending ends**, when nothing else moves. -/
theorem inevitable_of_ending (h : s.Ending w) (hc : s.caller = .returned) {n : Nat}
    (hn : s.begunAfter = n) :
    (retryMachine w).Inevitable (fun t => t.IsOver ∧ t.begunAfter = n) s := by
  refine Machine.inevitable_of_measure
    (I := fun s => s.Ending w ∧ s.caller = .returned ∧ s.begunAfter = n) Retry.distance
    ?_ ?_ ⟨h, hc, hn⟩
  · rintro s ⟨hs, -, hn⟩ hnot
    exact Retry.exists_step_of_ending hs fun ho => hnot ⟨ho, hn⟩
  · rintro s a t ⟨hs, hc, hn⟩ hnot hst
    obtain ⟨hcaller, -⟩ | hw := retryStep_of_step hst
    · exact absurd hc hcaller
    · obtain ⟨hending, hbegun, hcaller⟩ := hw.ending hs
      exact ⟨⟨hending, hcaller.trans hc, hbegun.trans hn⟩,
        hw.distance_lt hs fun ho => hnot ⟨ho, hn⟩⟩

/-- Where the wrapper is once an invocation has begun after `retry` returned: it is in this
invocation, or its loop is ending. -/
def LastInvocation (w : Retry.Wrapper) (s : Retry) : Prop :=
  s.begunAfter = 1 ∧ s.caller = .returned ∧ (s.wrapper = .calling ∨ s.Ending w)

/-- The step from which the first invocation after the return begins, and every other. -/
theorem lastInvocation_or_of_step (hs : (retryMachine w).step s a = some t)
    (h : s.begunAfter = 0) : t.begunAfter = 0 ∨ LastInvocation w t := by
  obtain ⟨-, hbegun⟩ | hw := retryStep_of_step hs
  · exact .inl (hbegun.trans h)
  · cases hw with
    | invoke hw hc =>
      by_cases hr : s.caller = .returned
      · right
        exact ⟨by simp [Retry.invoke, hr, h], hr, .inl rfl⟩
      · left
        simp [Retry.invoke, hr, h]
    | _ => exact .inl h

/-- The last invocation stays the last, unless it swallows the interruption. -/
theorem LastInvocation.step (h : LastInvocation w s) (hs : (retryMachine w).step s a = some t)
    (hP : ¬ Swallows w s a) : LastInvocation w t := by
  obtain ⟨hone, hcaller, hpoint⟩ := h
  obtain ⟨hnot, -⟩ | hw := retryStep_of_step hs
  · exact absurd hcaller hnot
  obtain hcalling | hending := hpoint
  · cases hw with
    | returns => exact ⟨hone, hcaller, .inr trivial⟩
    | flag => exact ⟨hone, hcaller, .inl hcalling⟩
    | fails =>
      refine ⟨hone, hcaller, .inr ?_⟩
      show s.interrupted = true ∨ w.hasReachedMaxRetryCount (s.retryCount + 1) = true
      by_contra hnot
      simp only [not_or, Bool.not_eq_true] at hnot
      exact hP ⟨rfl, hcalling, by omega, hnot⟩
    | start hw | noticed hw | unnoticed hw | reached hw | invoke hw | count hw | sleep hw
    | wake hw | settle hw => simp [hcalling] at hw
    | sleepThrows hw => simp [hcalling] at hw
  · obtain ⟨hending', hbegun, hcaller'⟩ := hw.ending hending
    exact ⟨hbegun.trans hone, hcaller'.trans hcaller, .inr hending'⟩

/-- **The wrapper stops** after at most one further invocation, in every run in which no such
invocation swallows the interruption. -/
theorem stopsAfterReturn_of_reachableOf
    (h : (retryMachine w).ReachableOf (fun s a => ¬ Swallows w s a) s) : StopsAfterReturn w s := by
  have hinv : s.begunAfter = 0 ∨ LastInvocation w s := by
    refine h.invariant (I := fun s => s.begunAfter = 0 ∨ LastInvocation w s) (fun s hs => ?_)
      fun s a t _ hinv hP hs => ?_
    · obtain rfl : s = .initial := hs
      exact .inl rfl
    · obtain hzero | hlast := hinv
      · exact lastInvocation_or_of_step hs hzero
      · exact .inr (hlast.step hs hP)
  obtain hzero | ⟨hone, hcaller, hpoint⟩ := hinv
  · exact ⟨by omega, fun hone => by omega⟩
  · refine ⟨by omega, fun _ hcalling => ?_⟩
    exact inevitable_of_ending (hpoint.resolve_left hcalling) hcaller hone

/-- Invocations are counted only when `retry` has returned. -/
theorem caller_of_begunAfter (h : (retryMachine w).Reachable s) (hb : 0 < s.begunAfter) :
    s.caller = .returned := by
  suffices hinv : s.begunAfter = 0 ∨ s.caller = .returned by
    exact hinv.resolve_left hb.ne'
  refine h.invariant (I := fun s => s.begunAfter = 0 ∨ s.caller = .returned) (fun s hs => ?_)
    fun s a t _ hinv _ hs => ?_
  · obtain rfl : s = .initial := hs
    exact .inl rfl
  · obtain ⟨hnot, hbegun⟩ | hw := retryStep_of_step hs
    · exact .inl (hbegun.trans (hinv.resolve_right hnot))
    · cases hw with
      | invoke =>
        by_cases hr : s.caller = .returned
        · exact .inr hr
        · exact .inl (by simp [Retry.invoke, hr, hinv.resolve_right hr])
      | _ => exact hinv

/-- From the test of the flag, the loop goes on to another invocation. -/
theorem run_invoke (hw : s.wrapper = .testInterrupted) (hi : s.interrupted = false)
    (hc : w.hasReachedMaxRetryCount s.retryCount = false) :
    (retryMachine w).Run s s.invoke := by
  have htest : (retryMachine w).step s .wrapper = some { s with wrapper := .testCount } := by
    simp [retryMachine, Retry.step, Retry.nextWrapper, hw, hi]
  have hinvoke : (retryMachine w).step { s with wrapper := .testCount } .wrapper =
      some s.invoke := by
    simp [retryMachine, Retry.step, Retry.nextWrapper, hc, Retry.invoke]
  exact .head trivial htest (.head trivial hinvoke .refl)

/-- From a failed invocation, the loop comes to the test of the flag. -/
theorem run_testInterrupted (hw : s.wrapper = .caught) (hi : s.interrupted = false) :
    (retryMachine w).Run s
      { s with wrapper := .testInterrupted, retryCount := s.retryCount + 1 } := by
  have hcount : (retryMachine w).step s .wrapper = some { s with
      wrapper := if w.isIntervalSpecified then .delay else .testInterrupted
      retryCount := s.retryCount + 1 } := by
    simp [retryMachine, Retry.step, Retry.nextWrapper, hw]
  refine .head trivial hcount ?_
  cases w.isIntervalSpecified with
  | false => exact .refl
  | true =>
    have hdelay : (retryMachine w).step
        { s with wrapper := .delay, retryCount := s.retryCount + 1 } .wrapper =
          some { s with wrapper := .sleeping, retryCount := s.retryCount + 1 } := by
      simp [retryMachine, Retry.step, Retry.nextWrapper, hi]
    exact .head trivial hdelay (.head (a := .wrapper) trivial rfl .refl)

/-- **A swallowed interruption is never noticed**: the loop can go on to another invocation. -/
theorem exists_two_of_swallows (h : (retryMachine w).Reachable s) (hs : Swallows w s a) :
    ∃ t, (retryMachine w).Run s t ∧ ¬ StopsAfterReturn w t := by
  obtain ⟨rfl, hcalling, hbegun, hi, hc⟩ := hs
  have hcaller := caller_of_begunAfter h hbegun
  have hthrows : (retryMachine w).step s .throwsException =
      some { s with wrapper := .caught } := by
    simp [retryMachine, Retry.step, hcalling]
  have hretry := run_testInterrupted (w := w) (s := { s with wrapper := .caught }) rfl hi
  have hinvoke := run_invoke (w := w)
    (s := { s with wrapper := .testInterrupted, retryCount := s.retryCount + 1 }) rfl hi hc
  refine ⟨_, .head trivial hthrows (hretry.trans hinvoke), fun hstops => ?_⟩
  have htwo : s.begunAfter + 1 ≤ 1 := by
    simpa [Retry.invoke, hcaller] using hstops.1
  omega

end Stopping

/-! ### Runs -/

/-- Retried without an interval, up to the largest count. -/
def unlimitedRetry : Retry.Wrapper := ⟨Int32.maxValue, 0, .nanoseconds⟩

/-- The timeout elapses during the first invocation, which the interruption reaches. -/
def timedOutInFirst : List RetryAction :=
  [.caller, .wrapper, .wrapper, .wrapper, .callerThrows, .caller, .caller, .caller]

/-- A task that leaves the flag alone and fails: the loop notices that the thread is interrupted. -/
theorem stopsAfterReturn_unlimitedRetry :
    ∃ s, s.caller = .returned ∧ s.wrapper = .ended ∧ StopsAfterReturn unlimitedRetry s := by
  obtain ⟨s, hrun, hs⟩ := (retryMachine unlimitedRetry).exists_runOf_of_execOf
    (fun s _ => s.begunAfter = 0) .initial
    (timedOutInFirst ++ [.throwsException, .wrapper, .wrapper])
    (fun s => s.caller = .returned ∧ s.wrapper = .ended) (by decide)
  obtain ⟨hcaller, hwrapper⟩ := of_decide_eq_true hs
  refine ⟨s, hcaller, hwrapper, stopsAfterReturn_of_reachableOf ⟨.initial, rfl, ?_⟩⟩
  refine hrun.mono fun s a hzero hswallows => ?_
  have := hswallows.2.2.1
  omega

/-- A task that throws `InterruptedException` when it is interrupted, and fails again when it is
retried: it is invoked a second time after `retry` has returned. -/
theorem not_stopsAfterReturn_unlimitedRetry :
    ¬ ∀ s, (retryMachine unlimitedRetry).Reachable s → StopsAfterReturn unlimitedRetry s := by
  intro hall
  obtain ⟨s, hrun, hs⟩ := (retryMachine unlimitedRetry).exists_run_of_exec .initial
    (timedOutInFirst ++
      [.clearFlag, .throwsException, .wrapper, .wrapper, .wrapper,
        .throwsException, .wrapper, .wrapper, .wrapper])
    (fun s => s.begunAfter = 2) (by decide)
  have htwo := (hall s ⟨.initial, rfl, hrun⟩).1
  have hs := of_decide_eq_true hs
  omega

end Shabdiz
