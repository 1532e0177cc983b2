import Mathlib.Data.ENat.Lattice
import Shabdiz.Util.Duration
import Shabdiz.Util.Loops

/-!
# Retrying a task a number of times

The callable that `TimeoutExecutorService.retry` submits calls the task until it returns, as long as
it throws an `Exception`, the maximum count is not reached and the thread is not interrupted. It
returns what the task returns, and otherwise throws the last exception. What it throws in the end
is `null` if the loop is left before the first invocation; an assertion says that this does not
happen.

## Main definitions

* `TaskRuns` — what the task does, invocation by invocation, and the interruptions
* `TaskRetryWrapper`, `TaskRetryWrapper.call` — the callable
* `TaskRuns.firstSuccess` — the first invocation that returns, if any
* `Retries` — what is expected of a call

## Main results

* `Retrying.retries` — what the loop does from a round on
* `TaskRetryWrapper.call_retries` — a call that is not interrupted
-/

namespace Shabdiz

/-- The invocations of a task are counted from one. `isInterrupted n` and `delayInterrupted n` are
about the thread after `n` of them: whether it is interrupted when the loop tests it, and whether a
delay ends with an `InterruptedException`. -/
structure TaskRuns (V Ξ : Type) where
  call : ℕ → Except Ξ V
  /-- Whether what is thrown is an `Exception`. -/
  isException : Ξ → Bool
  isInterrupted : ℕ → Bool
  delayInterrupted : ℕ → Bool

/-- How a call ends. -/
inductive CallEnd (V Ξ : Type) where
  | returned (value : V)
  | threw (error : Ξ)
  /-- The delay was interrupted. -/
  | interruptedException
  /-- `error` is `null` at the assertion. -/
  | assertionFailed
deriving DecidableEq

/-- The fields of a wrapper. -/
structure TaskRetryWrapper where
  maxRetryCount : Int32
  retryCount : Int32
  intervalMillis : Int64
deriving DecidableEq

/-- A call with the number of its invocations of the task, and the wrapper after it. -/
structure RetryCall (V Ξ : Type) where
  callEnd : CallEnd V Ξ
  invocations : ℕ
  wrapper : TaskRetryWrapper
deriving DecidableEq

namespace TaskRetryWrapper

/-- The constructor: no retry has been counted, and no interval is given. -/
def new (maxRetryCount : Int32) : TaskRetryWrapper := ⟨maxRetryCount, 0, 0⟩

/-- Set the interval, which is kept in milliseconds. -/
def setRetryInterval (w : TaskRetryWrapper) (interval : Int64) (unit : TimeUnit) :
    TaskRetryWrapper :=
  { w with intervalMillis := TimeUnit.milliseconds.convert interval unit }

/-- An interval is given. -/
def isIntervalSpecified (w : TaskRetryWrapper) : Bool := 0 < w.intervalMillis

/-- As many retries were counted as there may be. -/
def hasReachedMaxRetryCount (w : TaskRetryWrapper) : Bool := w.maxRetryCount ≤ w.retryCount

/-- Count a retry, with wrap-around. -/
def countRetry (w : TaskRetryWrapper) : TaskRetryWrapper :=
  { w with retryCount := w.retryCount + 1 }

theorem toInt_countRetry {w : TaskRetryWrapper} (h : w.hasReachedMaxRetryCount = false) :
    w.countRetry.retryCount.toInt = w.retryCount.toInt + 1 := by
  have hlt : w.retryCount < w.maxRetryCount := Int32.not_le.mp (of_decide_eq_false h)
  rw [Int32.lt_iff_toInt_lt] at hlt
  have hmax := w.maxRetryCount.toInt_lt
  exact toInt_add_one (by omega)

/-- The loop of `call`, after `n` invocations of the task. -/
def callFrom {V Ξ : Type} (runs : TaskRuns V Ξ) (n : ℕ) (error : Option Ξ) (w : TaskRetryWrapper) :
    RetryCall V Ξ :=
  if runs.isInterrupted n = false ∧ w.hasReachedMaxRetryCount = false then
    match runs.call (n + 1) with
    | .ok value => ⟨.returned value, n + 1, w⟩
    | .error e =>
      if runs.isException e then
        -- `delayRetryIfNecessary()`
        if w.isIntervalSpecified && runs.delayInterrupted (n + 1) then
          ⟨.interruptedException, n + 1, w.countRetry⟩
        else callFrom runs (n + 1) (some e) w.countRetry
      else ⟨.threw e, n + 1, w⟩
  else
    match error with
    | some e => ⟨.threw e, n, w⟩
    | none => ⟨.assertionFailed, n, w⟩
termination_by (w.maxRetryCount.toInt - w.retryCount.toInt).toNat
decreasing_by
  have hreached : w.hasReachedMaxRetryCount = false := And.right ‹_ ∧ _›
  have hcount := toInt_countRetry hreached
  have hlt : w.retryCount < w.maxRetryCount := Int32.not_le.mp (of_decide_eq_false hreached)
  rw [Int32.lt_iff_toInt_lt] at hlt
  show (w.maxRetryCount.toInt - w.countRetry.retryCount.toInt).toNat < _
  omega

/-- The call of the wrapper. -/
def call {V Ξ : Type} (w : TaskRetryWrapper) (runs : TaskRuns V Ξ) : RetryCall V Ξ :=
  w.callFrom runs 0 none

end TaskRetryWrapper

/-! ### What is expected -/

variable {V Ξ : Type} {runs : TaskRuns V Ξ} {w : TaskRetryWrapper} {n k max : ℕ}
variable {error : Option Ξ}

namespace TaskRuns

/-- The invocations that return. -/
def successes (runs : TaskRuns V Ξ) : Set ℕ := {k | 1 ≤ k ∧ ∃ value, runs.call k = .ok value}

/-- The first invocation that returns. -/
noncomputable def firstSuccess (runs : TaskRuns V Ξ) : ℕ∞ := ⨅ k ∈ runs.successes, (k : ℕ∞)

/-- No interruption, and nothing that is not an `Exception`. -/
structure Calm (runs : TaskRuns V Ξ) : Prop where
  isInterrupted : ∀ n, runs.isInterrupted n = false
  delayInterrupted : ∀ n, runs.delayInterrupted n = false
  isException : ∀ k e, runs.call k = .error e → runs.isException e

theorem firstSuccess_eq (hk : k ∈ runs.successes) (hfirst : ∀ j ∈ runs.successes, k ≤ j) :
    runs.firstSuccess = k :=
  le_antisymm (iInf₂_le k hk) (le_iInf₂ fun j hj => Nat.cast_le.mpr (hfirst j hj))

theorem lt_firstSuccess (h : ∀ k ∈ runs.successes, n < k) : (n : ℕ∞) < runs.firstSuccess := by
  have hlt : (n : ℕ∞) < (n + 1 : ℕ) := Nat.cast_lt.mpr (Nat.lt_succ_self n)
  exact hlt.trans_le (le_iInf₂ fun k hk => Nat.cast_le.mpr (h k hk))

end TaskRuns

/-- What is expected of a call with a maximum count: the task is invoked until it returns, or so
many times, and the call ends as the last invocation does. -/
structure Retries (runs : TaskRuns V Ξ) (max : ℕ) (call : RetryCall V Ξ) : Prop where
  invocations : (call.invocations : ℕ∞) = min runs.firstSuccess max
  returned : ∀ k : ℕ, runs.firstSuccess = k → k ≤ max →
    ∃ value, runs.call k = .ok value ∧ call.callEnd = .returned value
  threw : max < runs.firstSuccess → ∃ e, runs.call max = .error e ∧ call.callEnd = .threw e
  asserted : call.callEnd ≠ .assertionFailed

/-- The task has failed as often as it may. -/
theorem retries_threw {e : Ξ} (hfailed : ∀ k ∈ runs.successes, max < k)
    (he : runs.call max = .error e) : Retries runs max ⟨.threw e, max, w⟩ := by
  have hlt := TaskRuns.lt_firstSuccess hfailed
  constructor
  · exact (min_eq_right hlt.le).symm
  · intro k hk hle
    rw [hk] at hlt
    exact absurd (Nat.cast_lt.mp hlt) (not_lt.mpr hle)
  · exact fun _ => ⟨e, he, rfl⟩
  · simp

/-- The task has returned for the first time. -/
theorem retries_returned {value : V} (hfirst : runs.firstSuccess = k) (hle : k ≤ max)
    (hvalue : runs.call k = .ok value) : Retries runs max ⟨.returned value, k, w⟩ := by
  constructor
  · rw [hfirst]
    exact (min_eq_left (Nat.cast_le.mpr hle)).symm
  · intro j hj _
    obtain rfl : k = j := Nat.cast_inj.mp (hfirst.symm.trans hj)
    exact ⟨value, hvalue, rfl⟩
  · intro hlt
    rw [hfirst] at hlt
    exact absurd (Nat.cast_lt.mp hlt) (not_lt.mpr hle)
  · simp

/-! ### The loop -/

/-- After `n` invocations, all of which failed, the last with `error`. -/
structure Retrying (runs : TaskRuns V Ξ) (max n : ℕ) (error : Option Ξ) (w : TaskRetryWrapper) :
    Prop where
  maxRetryCount : w.maxRetryCount.toInt = max
  retryCount : w.retryCount.toInt = n
  bounded : n ≤ max
  failed : ∀ k ∈ runs.successes, n < k
  error : n = 0 ∨ ∃ e, error = some e ∧ runs.call n = .error e

theorem Retrying.hasReachedMaxRetryCount_eq (h : Retrying runs max n error w) :
    w.hasReachedMaxRetryCount = decide (max ≤ n) := by
  rw [TaskRetryWrapper.hasReachedMaxRetryCount, decide_eq_decide, Int32.le_iff_toInt_le,
    h.maxRetryCount, h.retryCount]
  exact Nat.cast_le

/-- One more invocation that fails. -/
theorem Retrying.step {e : Ξ} (h : Retrying runs max n error w)
    (hreached : w.hasReachedMaxRetryCount = false) (he : runs.call (n + 1) = .error e) :
    Retrying runs max (n + 1) (some e) w.countRetry where
  maxRetryCount := h.maxRetryCount
  retryCount := by
    rw [TaskRetryWrapper.toInt_countRetry hreached, h.retryCount]
    push_cast
    rfl
  bounded := by
    rw [h.hasReachedMaxRetryCount_eq] at hreached
    exact not_le.mp (of_decide_eq_false hreached)
  failed := by
    intro k hk
    have hnk := h.failed k hk
    have hne : k ≠ n + 1 := by
      rintro rfl
      obtain ⟨-, value, hvalue⟩ := hk
      simp [he] at hvalue
    omega
  error := .inr ⟨e, rfl, he⟩

namespace TaskRetryWrapper

theorem callFrom_of_reached {e : Ξ} (hreached : w.hasReachedMaxRetryCount = true) :
    w.callFrom runs n (some e) = ⟨.threw e, n, w⟩ := by
  rw [callFrom.eq_def, if_neg (by simp [hreached])]

theorem callFrom_of_ok {value : V} (hcalm : runs.Calm)
    (hreached : w.hasReachedMaxRetryCount = false) (h : runs.call (n + 1) = .ok value) :
    w.callFrom runs n error = ⟨.returned value, n + 1, w⟩ := by
  rw [callFrom.eq_def, if_pos ⟨hcalm.isInterrupted n, hreached⟩, h]

theorem callFrom_of_error {e : Ξ} (hcalm : runs.Calm)
    (hreached : w.hasReachedMaxRetryCount = false) (h : runs.call (n + 1) = .error e) :
    w.callFrom runs n error = w.countRetry.callFrom runs (n + 1) (some e) := by
  refine (callFrom.eq_def ..).trans ?_
  rw [if_pos ⟨hcalm.isInterrupted n, hreached⟩, h]
  simp only [if_pos (hcalm.isException _ e h), hcalm.delayInterrupted, Bool.and_false,
    Bool.false_eq_true, if_false]

end TaskRetryWrapper

/-- **What the loop does from a round on.** -/
theorem Retrying.retries (hcalm : runs.Calm) (hmax : 1 ≤ max) (h : Retrying runs max n error w) :
    Retries runs max (w.callFrom runs n error) := by
  -- Induction on the invocations that are left.
  obtain ⟨d, hd⟩ := Nat.exists_eq_add_of_le h.bounded
  induction d generalizing n error w with
  | zero =>
    have hreached : w.hasReachedMaxRetryCount = true := by
      rw [h.hasReachedMaxRetryCount_eq]
      exact decide_eq_true (by omega)
    obtain rfl : max = n := by omega
    obtain ⟨e, rfl, he⟩ := h.error.resolve_left (by omega)
    rw [TaskRetryWrapper.callFrom_of_reached hreached]
    exact retries_threw h.failed he
  | succ d ih =>
    have hreached : w.hasReachedMaxRetryCount = false := by
      rw [h.hasReachedMaxRetryCount_eq]
      exact decide_eq_false (by omega)
    cases hn : runs.call (n + 1) with
    | ok value =>
      have hfirst : runs.firstSuccess = (n + 1 : ℕ) :=
        TaskRuns.firstSuccess_eq ⟨by omega, value, hn⟩ h.failed
      rw [TaskRetryWrapper.callFrom_of_ok hcalm hreached hn]
      exact retries_returned hfirst (by omega) hn
    | error e =>
      rw [TaskRetryWrapper.callFrom_of_error hcalm hreached hn]
      exact ih (h.step hreached hn) (by omega)

/-- **A call that is not interrupted.** -/
theorem TaskRetryWrapper.call_retries (w : TaskRetryWrapper) (runs : TaskRuns V Ξ)
    (hnew : w.retryCount = 0) (hmax : 1 ≤ w.maxRetryCount) (hcalm : runs.Calm) :
    Retries runs w.maxRetryCount.toInt.toNat (w.call runs) := by
  have hone : 1 ≤ w.maxRetryCount.toInt := Int32.le_iff_toInt_le.mp hmax
  refine Retrying.retries hcalm (by omega) ?_
  constructor
  · omega
  · rw [hnew]
    rfl
  · exact Nat.zero_le _
  · exact fun k hk => hk.1
  · exact .inl rfl

/-- A task that fails twice and then returns. -/
def failsTwice : TaskRuns String Unit where
  call k := if k ≤ 2 then .error () else .ok "done"
  isException _ := true
  isInterrupted _ := false
  delayInterrupted _ := false

theorem failsTwice_calm : failsTwice.Calm :=
  ⟨fun _ => rfl, fun _ => rfl, fun _ _ _ => rfl⟩

theorem TaskRetryWrapper.call_retries_failsTwice :
    Retries failsTwice 5 (((new 5).setRetryInterval 1 .seconds).call failsTwice) :=
  call_retries ((new 5).setRetryInterval 1 .seconds) failsTwice rfl (by decide) failsTwice_calm

end Shabdiz
