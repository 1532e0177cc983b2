import Shabdiz.Core.ScannerSchedule
import Mathlib.Data.Int.Order.Basic

/-!
# Scanners whose tasks are refused

`ScannerSchedule` schedules a task unless the scheduler has been shut down. `scheduleScanner` also
fails for a scanner whose cycle delay is not positive, since `scheduleWithFixedDelay` checks its
arguments first. The delay is what `getCycleDelay` returns when it is called; it is an argument of
each method here.

`addScanner` registers the listener, schedules, and then stores the future. When the step in the
middle throws, the first of the three changes has been made already, and nothing undoes it.

## Main definitions

* `scheduleWithFixedDelay`, `Delayed.addScanner`, `Delayed.setEnabled` — the methods, for any delay
* `Unchanged`, `Inert` — what a failed call should leave behind, and what then follows
* `AtomicOnFailure` — a call of `addScanner` that throws has no effect

## Main results

* `Delayed.addScanner_of_pos`, `Delayed.setEnabled_of_pos` — with a positive delay, these are the
  methods of `ScannerSchedule`
* `atomicOnFailure_iff` — `addScanner` is atomic exactly where it does not have to schedule a task
  that is refused
* `enabledListeners_add_two` — a scanner added after a failed attempt is listened to once more
  than one that is removed stops being listened to
-/

namespace Shabdiz

/-- What scheduling a periodic task can throw. -/
inductive SchedulingException where
  /-- The delay is not positive. -/
  | illegalArgument
  | scanner (e : ScannerException)
deriving DecidableEq

namespace ScannerSchedule

variable {S : Type} [DecidableEq S] {α : Type}

/-- `scheduleWithFixedDelay`, which checks the delay before the scheduler can reject the task. -/
def scheduleWithFixedDelay (delay : ℤ) (s : S) (n : ScannerSchedule S) :
    Except SchedulingException (ScannerSchedule S × ScheduledFuture S) :=
  if delay ≤ 0 then .error .illegalArgument
  else
    match n.scheduleScanner s with
    | none => .error (.scanner .rejectedExecution)
    | some scheduled => .ok scheduled

/-- What a method throws, as one of the exceptions of scheduling. -/
def withSchedulingException (r : ScannerSchedule S × Except ScannerException α) :
    ScannerSchedule S × Except SchedulingException α :=
  (r.1, r.2.mapError .scanner)

namespace Delayed

/-! ### The methods that schedule -/

/-- Sequencing: an exception ends the call. -/
def andThen (r : ScannerSchedule S × Except SchedulingException Unit)
    (next : ScannerSchedule S → ScannerSchedule S × Except SchedulingException α) :
    ScannerSchedule S × Except SchedulingException α :=
  match r with
  | (n, .ok ()) => next n
  | (n, .error e) => (n, .error e)

/-- The synchronized block of `ScannerEnabledPropertyChangeListener.propertyChange`. -/
def propertyChange (delay : ℤ) (s : S) (enabled : Bool) (n : ScannerSchedule S) :
    ScannerSchedule S × Except SchedulingException Unit :=
  if enabled then
    match n.scheduleWithFixedDelay delay s with
    | .error e => (n, .error e)
    | .ok (n₁, future) =>
      let n₂ := n₁.put s (some future)
      match n.scheduledScanners.get s with
      | none => (n₂, .ok ())
      | some oldFuture => (if n₂.isDone oldFuture then n₂ else n₂.cancel oldFuture, .ok ())
  else (n.cancelIfNotNull (n.scheduledScanners.get s), .ok ())

/-- Notify the listener `count` times, as often as it is registered. -/
def notifyListeners (delay : ℤ) (s : S) (enabled : Bool) :
    Nat → ScannerSchedule S → ScannerSchedule S × Except SchedulingException Unit
  | 0, n => (n, .ok ())
  | count + 1, n =>
    andThen (propertyChange delay s enabled n) (notifyListeners delay s enabled count)

/-- Set the flag of a scanner and, if that changes it, notify the listeners. -/
def setEnabled (delay : ℤ) (s : S) (enabled : Bool) (n : ScannerSchedule S) :
    ScannerSchedule S × Except SchedulingException Unit :=
  let old := n.enabled s
  let n₁ := n.setFlag s enabled
  if old = enabled then (n₁, .ok ())
  else notifyListeners delay s enabled (n₁.enabledListeners s) n₁

/-- Add a scanner: register the listener, schedule the scanner if it is enabled, and put it into
the map. -/
def addScanner (delay : ℤ) (s : S) (n : ScannerSchedule S) :
    ScannerSchedule S × Except SchedulingException Bool :=
  if n.isAdded s then (n, .ok false)
  else
    let n₁ := n.addEnabledPropertyChangeListener s
    if n₁.enabled s then
      match n₁.scheduleWithFixedDelay delay s with
      | .error e => (n₁, .error e)
      | .ok (n₂, future) => (n₂.put s (some future), .ok true)
    else (n₁.put s none, .ok true)

end Delayed

/-! ### A positive delay -/

section Positive

variable {delay : ℤ} {s : S} {n : ScannerSchedule S} {enabled : Bool}

theorem scheduleWithFixedDelay_of_pos (h : 0 < delay) :
    n.scheduleWithFixedDelay delay s =
      if n.isShutdown then .error (.scanner .rejectedExecution)
      else .ok (n.schedule s, ⟨s, n.nextId⟩) := by
  simp only [scheduleWithFixedDelay, not_le.mpr h, if_false, scheduleScanner]
  cases n.isShutdown <;> rfl

theorem scheduleWithFixedDelay_of_nonpos (h : delay ≤ 0) :
    n.scheduleWithFixedDelay delay s = .error .illegalArgument := by
  simp [scheduleWithFixedDelay, h]

theorem scheduleWithFixedDelay_eq_ok {n' : ScannerSchedule S} {future : ScheduledFuture S}
    (h : n.scheduleWithFixedDelay delay s = .ok (n', future)) :
    n' = n.schedule s ∧ future = ⟨s, n.nextId⟩ := by
  by_cases hd : delay ≤ 0
  · simp [scheduleWithFixedDelay_of_nonpos hd] at h
  · rw [scheduleWithFixedDelay_of_pos (not_le.mp hd)] at h
    split at h
    · cases h
    · simpa [eq_comm] using h

/-- A task is refused exactly for a delay that is not positive and by a scheduler that has been
shut down. -/
theorem scheduleWithFixedDelay_eq_error_iff :
    (∃ e, n.scheduleWithFixedDelay delay s = .error e) ↔ delay ≤ 0 ∨ n.isShutdown = true := by
  by_cases h : delay ≤ 0
  · simp [scheduleWithFixedDelay_of_nonpos h, h]
  · rw [scheduleWithFixedDelay_of_pos (not_le.mp h)]
    cases hd : n.isShutdown <;> simp [h]

namespace Delayed

theorem propertyChange_of_pos (h : 0 < delay) :
    propertyChange delay s enabled n = withSchedulingException (n.propertyChange s enabled) := by
  cases enabled with
  | false => simp [propertyChange, ScannerSchedule.propertyChange, withSchedulingException,
      Except.mapError]
  | true =>
    simp only [propertyChange, ScannerSchedule.propertyChange, scheduleWithFixedDelay_of_pos h,
      scheduleScanner, if_true]
    cases n.isShutdown with
    | true => rfl
    | false => cases hget : n.scheduledScanners.get s <;> rfl

theorem notifyListeners_of_pos (h : 0 < delay) (count : Nat) :
    notifyListeners delay s enabled count n =
      withSchedulingException (n.notifyListeners s enabled count) := by
  induction count generalizing n with
  | zero => rfl
  | succ count ih =>
    simp only [notifyListeners, ScannerSchedule.notifyListeners, propertyChange_of_pos h]
    rcases n.propertyChange s enabled with ⟨n₁, e | ⟨⟩⟩
    · rfl
    · exact ih

/-- With a positive delay, `setEnabled` is the method of `ScannerSchedule`. -/
theorem setEnabled_of_pos (h : 0 < delay) :
    setEnabled delay s enabled n = withSchedulingException (n.setEnabled s enabled) := by
  simp only [setEnabled, ScannerSchedule.setEnabled, firePropertyChange]
  split
  · rfl
  · exact notifyListeners_of_pos h _

/-- With a positive delay, `addScanner` is the method of `ScannerSchedule`. -/
theorem addScanner_of_pos (h : 0 < delay) :
    addScanner delay s n = withSchedulingException (n.addScanner s) := by
  simp only [addScanner, ScannerSchedule.addScanner, scheduleWithFixedDelay_of_pos h,
    scheduleScanner]
  split
  · rfl
  split
  · cases (n.addEnabledPropertyChangeListener s).isShutdown <;> rfl
  · rfl

/-! ### Calls that fail -/

/-- **When `addScanner` throws**: the scanner is new and enabled, and its task is refused. The
listener stays registered. -/
theorem addScanner_eq_error_iff {n' : ScannerSchedule S} {e : SchedulingException} :
    addScanner delay s n = (n', .error e) ↔
      s ∉ n.scheduledScanners.keys ∧ n.enabled s = true ∧
        n.scheduleWithFixedDelay delay s = .error e ∧
        n' = n.addEnabledPropertyChangeListener s := by
  -- Registering the listener has no influence on what scheduling throws.
  have hsame : (n.addEnabledPropertyChangeListener s).scheduleWithFixedDelay delay s = .error e ↔
      n.scheduleWithFixedDelay delay s = .error e := by
    simp only [scheduleWithFixedDelay, scheduleScanner, addEnabledPropertyChangeListener_isShutdown]
    split
    · rfl
    · cases n.isShutdown <;> simp
  by_cases hs : s ∈ n.scheduledScanners.keys
  · simp [addScanner, isAdded, hs]
  cases he : n.enabled s with
  | false => simp [addScanner, isAdded, hs, he]
  | true =>
    rw [← hsame]
    simp only [addScanner, isAdded, hs, he, decide_false, Bool.false_eq_true, if_false,
      addEnabledPropertyChangeListener_enabled, if_true]
    cases (n.addEnabledPropertyChangeListener s).scheduleWithFixedDelay delay s with
    | error e' => simp [eq_comm, and_comm]
    | ok r => simp

/-- What a call that adds a scanner does: the listener is registered, a task is scheduled or not,
and the scanner is stored. -/
theorem addScanner_eq_ok_true {n' : ScannerSchedule S} (h : addScanner delay s n = (n', .ok true)) :
    ∃ n₁ future, n' = n₁.put s future ∧
      (n₁ = n.addEnabledPropertyChangeListener s ∨
        n₁ = (n.addEnabledPropertyChangeListener s).schedule s) := by
  simp only [addScanner] at h
  split at h
  · simp at h
  split at h
  · split at h
    · simp at h
    · rename_i n₂ future hsched
      obtain rfl := (Prod.mk.inj h).1
      exact ⟨n₂, some future, rfl, .inr (scheduleWithFixedDelay_eq_ok hsched).1⟩
  · obtain rfl := (Prod.mk.inj h).1
    exact ⟨_, none, rfl, .inl rfl⟩

theorem enabledListeners_of_added {n' : ScannerSchedule S}
    (h : addScanner delay s n = (n', .ok true)) :
    n'.enabledListeners s = n.enabledListeners s + 1 := by
  obtain ⟨n₁, future, rfl, rfl | rfl⟩ := addScanner_eq_ok_true h <;> simp

theorem mem_keys_of_added {n' : ScannerSchedule S} (h : addScanner delay s n = (n', .ok true)) :
    s ∈ n'.scheduledScanners.keys := by
  obtain ⟨n₁, future, rfl, -⟩ := addScanner_eq_ok_true h
  simp

end Delayed

end Positive

/-! ### Atomicity -/

/-- What a call of `addScanner` that throws should leave as it was. -/
structure Unchanged (s : S) (n n' : ScannerSchedule S) : Prop where
  scheduledScanners : n'.scheduledScanners = n.scheduledScanners
  live : n'.live = n.live
  enabledListeners : n'.enabledListeners s = n.enabledListeners s

/-- No later call can tell that `s` was to be added: as long as the listeners of `s` are those it
has now, setting its flag does nothing else, and adding it registers the listener exactly once. -/
structure Inert (s : S) (n : ScannerSchedule S) : Prop where
  setEnabled : ∀ (delay : ℤ) (enabled : Bool) (m : ScannerSchedule S),
    m.enabledListeners s = n.enabledListeners s →
    Delayed.setEnabled delay s enabled m = (m.setFlag s enabled, .ok ())
  addScanner : ∀ (delay : ℤ) (m m' : ScannerSchedule S),
    m.enabledListeners s = n.enabledListeners s →
    Delayed.addScanner delay s m = (m', .ok true) → m'.enabledListeners s = 1

/-- A call of `addScanner` that throws has no effect, now or later. -/
def AtomicOnFailure (delay : ℤ) (s : S) (n : ScannerSchedule S) : Prop :=
  ∀ n' e, Delayed.addScanner delay s n = (n', .error e) →
    Unchanged s n n' ∧ (n.enabledListeners s = 0 → Inert s n')

variable {delay : ℤ} {s : S} {n n' : ScannerSchedule S} {e : SchedulingException}

/-- **When `addScanner` is atomic on failure.** It is when there is nothing to schedule, and when
the task is not refused. A scanner that is new and enabled, with a delay that is not positive or a
scheduler that has been shut down, is listened to after the call has thrown. -/
theorem atomicOnFailure_iff (delay : ℤ) (s : S) (n : ScannerSchedule S) :
    AtomicOnFailure delay s n ↔
      s ∈ n.scheduledScanners.keys ∨ n.enabled s = false ∨
        (0 < delay ∧ n.isShutdown = false) := by
  constructor
  · intro h
    by_contra hnot
    simp only [not_or, not_and_or, not_lt, Bool.not_eq_false] at hnot
    obtain ⟨hs, he, hrefused⟩ := hnot
    obtain ⟨e, hsched⟩ := scheduleWithFixedDelay_eq_error_iff.mpr hrefused
    have hthrows := Delayed.addScanner_eq_error_iff.mpr ⟨hs, he, hsched, rfl⟩
    have hlisteners := (h _ e hthrows).1.enabledListeners
    simp at hlisteners
  · intro h n' e hthrows
    exfalso
    obtain ⟨hs, he, hsched, -⟩ := Delayed.addScanner_eq_error_iff.mp hthrows
    obtain hmem | hdisabled | ⟨hpos, hup⟩ := h
    · exact hs hmem
    · simp [he] at hdisabled
    · obtain hnonpos | hdown := scheduleWithFixedDelay_eq_error_iff.mp ⟨e, hsched⟩
      · exact absurd hnonpos (not_le.mpr hpos)
      · simp [hup] at hdown

/-- An enabled scanner with a delay of zero, added to a network that has no scanners: the call
throws, and the network listens to the scanner. -/
theorem not_atomicOnFailure_zero :
    ¬ AtomicOnFailure 0 () (empty fun _ => true) := by
  intro h
  have hthrows : Delayed.addScanner 0 () (empty fun _ : Unit => true) =
      ((empty fun _ => true).addEnabledPropertyChangeListener (), .error .illegalArgument) := rfl
  have hlisteners := (h _ _ hthrows).1.enabledListeners
  simp at hlisteners

/-- What is left of a failed attempt. If the scanner is disabled and then added, the listener is
registered on it twice over, so that it is still registered once the scanner has been removed. -/
theorem enabledListeners_add_two {delay' : ℤ} {m m' : ScannerSchedule S}
    (hthrows : Delayed.addScanner delay s n = (n', .error e))
    (hm : m.enabledListeners s = n'.enabledListeners s)
    (hadd : Delayed.addScanner delay' s m = (m', .ok true)) :
    m'.enabledListeners s = n.enabledListeners s + 2 ∧
      (m'.removeScanner s).1.enabledListeners s = n.enabledListeners s + 1 := by
  obtain ⟨-, -, -, rfl⟩ := Delayed.addScanner_eq_error_iff.mp hthrows
  have htwo : m'.enabledListeners s = n.enabledListeners s + 2 := by
    rw [Delayed.enabledListeners_of_added hadd, hm]
    simp
  refine ⟨htwo, ?_⟩
  simp [removeScanner_of_mem (Delayed.mem_keys_of_added hadd), htwo]

end ScannerSchedule

end Shabdiz
