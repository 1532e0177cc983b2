import Shabdiz.Concurrency.Interleaving
import Shabdiz.Core.ScannerSchedule

/-!
# Scanners, with calls that overlap

The same methods, called by any number of threads at once. Only the map is guarded by its monitor.
`addScanner` registers the listener and reads the flag inside it; `removeScanner` takes the scanner
out of the map inside it, and cancels the future and removes the listener outside; `setEnabled`
swaps the flag, fires, and the listener enters the monitor once it is called; `setScanEnabled`
stays inside for the whole iteration, and the listener it causes to be called enters again.

The listener's block is one step, taken when the monitor is free or already entered by the same
thread: everything it touches is guarded, or is not looked at by anyone before the block ends.

## Main definitions

* `SharedSchedule` — the schedule, the monitor, and a history of who added and removed what
* `SharedSchedule.addScanner`, `removeScanner`, `setEnabled`, `setScanEnabled` — the methods
* `scannerCalls`, `sharedMachine` — the calls, interleaved
* `ScannerView`, `ScannerEffect` — a call as the properties see it, and what its steps do

## Main results

* `effect_of_scannerStep` — the list of effects is complete
* `scannerMonitor_eq_of_inside` — mutual exclusion
-/

namespace Shabdiz

/-- Who has put a scanner into the map, or taken it out. -/
inductive ScannerEvent (ι S : Type) where
  | added (i : ι) (s : S)
  | removed (i : ι) (s : S)
deriving DecidableEq

/-- The schedule as its callers share it. -/
structure SharedSchedule (ι S : Type) where
  schedule : ScannerSchedule S
  /-- The call inside `synchronized (scheduled_scanners)`. -/
  monitor : Option ι
  log : List (ScannerEvent ι S)

variable {ι S : Type} [DecidableEq ι] [DecidableEq S]

/-! ### Control points -/

/-- Where a call of `addScanner` stands. -/
inductive AddScannerPoint where
  | entry
  | locked
  /-- The listener is registered. -/
  | listening
  /-- The flag is read. -/
  | read (enabled : Bool)
  | returned (added : Bool)
  | thrown
deriving DecidableEq

/-- Where a call of `removeScanner` stands. -/
inductive RemoveScannerPoint (S : Type) where
  | entry
  /-- The scanner is out of the map, and the call has left the monitor. -/
  | removed (future : Option (ScheduledFuture S))
  /-- The future is cancelled; the listener is still registered. -/
  | cancelled
  | returned (removed : Bool)
deriving DecidableEq

/-- Where a call of `setEnabled` stands. -/
inductive SetEnabledPoint where
  | entry
  | swapped (old : Bool)
  /-- The event is fired, and the listener is still to be notified `count` times. -/
  | notifying (count : Nat)
  | returned
  | thrown
deriving DecidableEq

/-- Where a call of `setScanEnabled` stands, with the rest of its iteration. -/
inductive SetScanEnabledPoint (S : Type) where
  | entry
  | iterating (rest : List S) (modCount : Nat)
  /-- Inside `scanner.setEnabled(enabled)`. -/
  | setting (s : S) (p : SetEnabledPoint) (rest : List S) (modCount : Nat)
  | returned
  | thrown
deriving DecidableEq

namespace SharedSchedule

/-! ### Atomic steps -/

/-- Enter the monitor. -/
@[simps]
def hold (i : ι) (m : SharedSchedule ι S) : SharedSchedule ι S := { m with monitor := some i }

/-- Enter the monitor, if no call is inside. -/
def enter (i : ι) (m : SharedSchedule ι S) : Option (SharedSchedule ι S) :=
  if m.monitor.isNone then some (m.hold i) else none

/-- Leave the monitor. -/
@[simps]
def leave (m : SharedSchedule ι S) : SharedSchedule ι S := { m with monitor := none }

/-- Append an event to the log. -/
@[simps]
def record (e : ScannerEvent ι S) (m : SharedSchedule ι S) : SharedSchedule ι S :=
  { m with log := m.log ++ [e] }

/-- Change the schedule, whoever holds the monitor. -/
@[simps]
def update (f : ScannerSchedule S → ScannerSchedule S) (m : SharedSchedule ι S) :
    SharedSchedule ι S :=
  { m with schedule := f m.schedule }

/-! ### The methods -/

/-- The next step of `addScanner`, which is inside the monitor from its first step to its last. -/
def addScanner (i : ι) (s : S) (m : SharedSchedule ι S) :
    AddScannerPoint → Option (SharedSchedule ι S × AddScannerPoint)
  | .entry => (m.enter i).map (·, .locked)
  | .locked =>
    if m.schedule.isAdded s then some (m.leave, .returned false)
    else some (m.update (·.addEnabledPropertyChangeListener s), .listening)
  | .listening => some (m, .read (m.schedule.enabled s))
  | .read enabled =>
    if enabled then
      match m.schedule.scheduleScanner s with
      | none => some (m.leave, .thrown)
      | some (n, future) =>
        some (((m.update fun _ => n.put s (some future)).record (.added i s)).leave,
          .returned true)
    else some (((m.update (·.put s none)).record (.added i s)).leave, .returned true)
  | .returned _ => none
  | .thrown => none

/-- The synchronized block of `removeScanner` only reads and changes the map, and is one step. -/
def removeScanner (i : ι) (s : S) (m : SharedSchedule ι S) :
    RemoveScannerPoint S → Option (SharedSchedule ι S × RemoveScannerPoint S)
  | .entry =>
    if m.monitor.isNone then
      if m.schedule.isAdded s then
        some ((m.update (·.remove s)).record (.removed i s),
          .removed (m.schedule.scheduledScanners.get s))
      else some (m, .returned false)
    else none
  | .removed future => some (m.update (·.cancelIfNotNull future), .cancelled)
  | .cancelled => some (m.update (·.removeEnabledPropertyChangeListener s), .returned true)
  | .returned _ => none

/-- The next step of `setEnabled` of a scanner: it swaps the flag without a monitor, and notifies
the listener as often as it is registered; the listener takes the monitor. -/
def setEnabled (i : ι) (s : S) (enabled : Bool) (m : SharedSchedule ι S) :
    SetEnabledPoint → Option (SharedSchedule ι S × SetEnabledPoint)
  | .entry => some (m.update (·.setFlag s enabled), .swapped (m.schedule.enabled s))
  | .swapped old =>
    some (m, if old = enabled then .returned else .notifying (m.schedule.enabledListeners s))
  | .notifying 0 => some (m, .returned)
  | .notifying (count + 1) =>
    if m.monitor = none ∨ m.monitor = some i then
      match m.schedule.propertyChange s enabled with
      | (n, .ok ()) => some (m.update fun _ => n, .notifying count)
      | (n, .error _) => some (m.update fun _ => n, .thrown)
    else none
  | .returned => none
  | .thrown => none

/-- `order` is the environment's choice of the order of iteration. -/
def setScanEnabled (i : ι) (enabled : Bool) (order : List S) (m : SharedSchedule ι S) :
    SetScanEnabledPoint S → Option (SharedSchedule ι S × SetScanEnabledPoint S)
  | .entry =>
    if m.schedule.scheduledScanners.Enumerates order then
      (m.enter i).map (·, .iterating order m.schedule.scheduledScanners.modCount)
    else none
  | .iterating [] _ => some (m.leave, .returned)
  | .iterating (s :: rest) modCount =>
    if m.schedule.scheduledScanners.modCount = modCount then
      some (m, .setting s .entry rest modCount)
    else some (m.leave, .thrown)
  | .setting _ .returned rest modCount => some (m, .iterating rest modCount)
  | .setting _ .thrown _ _ => some (m.leave, .thrown)
  | .setting s p rest modCount =>
    (m.setEnabled i s enabled p).map fun r => (r.1, .setting s r.2 rest modCount)
  | .returned => none
  | .thrown => none

end SharedSchedule

/-! ### The calls, interleaved -/

/-- A call, before it begins. -/
inductive ScannerOperation (S : Type) where
  | addScanner (s : S)
  | removeScanner (s : S)
  | setEnabled (s : S) (enabled : Bool)
  | setScanEnabled (enabled : Bool)
deriving DecidableEq

/-- A call in progress, with its control point. -/
inductive RunningCall (S : Type) where
  | addScanner (s : S) (p : AddScannerPoint)
  | removeScanner (s : S) (p : RemoveScannerPoint S)
  | setEnabled (s : S) (enabled : Bool) (p : SetEnabledPoint)
  | setScanEnabled (enabled : Bool) (p : SetScanEnabledPoint S)
deriving DecidableEq

/-- Where the call of an operation begins. -/
def ScannerOperation.start : ScannerOperation S → RunningCall S
  | addScanner s => .addScanner s .entry
  | removeScanner s => .removeScanner s .entry
  | setEnabled s enabled => .setEnabled s enabled .entry
  | setScanEnabled enabled => .setScanEnabled enabled .entry

namespace RunningCall

/-- The operation that a call carries out. -/
def operation : RunningCall S → ScannerOperation S
  | addScanner s _ => .addScanner s
  | removeScanner s _ => .removeScanner s
  | setEnabled s enabled _ => .setEnabled s enabled
  | setScanEnabled enabled _ => .setScanEnabled enabled

/-- Whether the call has returned or thrown. -/
def isOver : RunningCall S → Bool
  | addScanner _ (.returned _) => true
  | addScanner _ .thrown => true
  | removeScanner _ (.returned _) => true
  | setEnabled _ _ .returned => true
  | setEnabled _ _ .thrown => true
  | setScanEnabled _ .returned => true
  | setScanEnabled _ .thrown => true
  | _ => false

/-- One atomic step of a call. -/
def next (i : ι) (order : List S) (m : SharedSchedule ι S) :
    RunningCall S → Option (SharedSchedule ι S × RunningCall S)
  | addScanner s p => (m.addScanner i s p).map fun r => (r.1, addScanner s r.2)
  | removeScanner s p => (m.removeScanner i s p).map fun r => (r.1, removeScanner s r.2)
  | setEnabled s enabled p =>
    (m.setEnabled i s enabled p).map fun r => (r.1, setEnabled s enabled r.2)
  | setScanEnabled enabled p =>
    (m.setScanEnabled i enabled order p).map fun r => (r.1, setScanEnabled enabled r.2)

omit [DecidableEq S] in
theorem operation_start (o : ScannerOperation S) : o.start.operation = o := by
  cases o <;> rfl

theorem operation_next {i : ι} {order : List S} {m m' : SharedSchedule ι S} {k k' : RunningCall S}
    (h : k.next i order m = some (m', k')) : k'.operation = k.operation := by
  cases k <;> obtain ⟨r, -, hr⟩ := Option.map_eq_some_iff.mp h <;>
    obtain rfl := congrArg Prod.snd hr <;> rfl

end RunningCall

/-- The calls on a network whose scanners are as `n` says before the first of them. -/
@[simps]
def scannerCalls (ι : Type) [DecidableEq ι] (n : ScannerSchedule S) :
    Interleaving ι (SharedSchedule ι S) (ScannerOperation S) (RunningCall S) (List S) where
  initial := ⟨n, none, []⟩
  start := ScannerOperation.start
  next i order m k := k.next i order m
  op := RunningCall.operation
  op_start := RunningCall.operation_start
  op_next := RunningCall.operation_next

/-- The schedule, and the calls of the threads. -/
abbrev ScannerConfig (ι S : Type) :=
  Config ι (SharedSchedule ι S) (ScannerOperation S) (RunningCall S)

/-- The calls, in any order. -/
def sharedMachine (ι : Type) [DecidableEq ι] (n : ScannerSchedule S) :
    Machine (ScannerConfig ι S) (ι × List S) :=
  (scannerCalls ι n).machine

/-! ### Views -/

/-- How far a call has come. -/
inductive ScannerStage (S : Type) where
  /-- Nothing is to be done that the call has begun. -/
  | idle
  /-- `s` is not in the map, the listener is registered on it, and the call is going to put it. -/
  | adding (s : S)
  /-- `s` is out of the map and `future` is to be cancelled. -/
  | removed (s : S) (future : Option (ScheduledFuture S))
  /-- The listener is to be removed from `s`. -/
  | unregistering (s : S)
  /-- The flag of `s` is swapped and no event is fired yet. -/
  | swapped (s : S) (old enabled : Bool)
  /-- The listener is to be notified `count` times of the new value `enabled`. -/
  | notifying (s : S) (enabled : Bool) (count : Nat)
deriving DecidableEq

/-- A call as seen from outside: whether it is inside the monitor, and its stage. -/
structure ScannerView (S : Type) where
  inside : Bool
  stage : ScannerStage S
deriving DecidableEq

/-- What a call of `addScanner` shows of itself. -/
def AddScannerPoint.view (s : S) : AddScannerPoint → ScannerView S
  | entry => ⟨false, .idle⟩
  | locked => ⟨true, .idle⟩
  | listening => ⟨true, .adding s⟩
  | read _ => ⟨true, .adding s⟩
  | returned _ => ⟨false, .idle⟩
  | thrown => ⟨false, .idle⟩

/-- What a call of `removeScanner` shows of itself. -/
def RemoveScannerPoint.view (s : S) : RemoveScannerPoint S → ScannerView S
  | entry => ⟨false, .idle⟩
  | removed future => ⟨false, .removed s future⟩
  | cancelled => ⟨false, .unregistering s⟩
  | returned _ => ⟨false, .idle⟩

/-- How far a call of `setEnabled` has come with its notification. -/
def SetEnabledPoint.stage (s : S) (enabled : Bool) : SetEnabledPoint → ScannerStage S
  | entry => .idle
  | swapped old => .swapped s old enabled
  | notifying count => .notifying s enabled count
  | returned => .idle
  | thrown => .idle

/-- What a call of `setScanEnabled` shows of itself: it sets one scanner after the other inside the
monitor. -/
def SetScanEnabledPoint.view (enabled : Bool) : SetScanEnabledPoint S → ScannerView S
  | entry => ⟨false, .idle⟩
  | iterating _ _ => ⟨true, .idle⟩
  | setting s p _ _ => ⟨true, p.stage s enabled⟩
  | returned => ⟨false, .idle⟩
  | thrown => ⟨false, .idle⟩

/-- What a call shows of itself: whether it is inside the monitor, and its stage. -/
def RunningCall.view : RunningCall S → ScannerView S
  | addScanner s p => p.view s
  | removeScanner s p => p.view s
  | setEnabled s enabled p => ⟨false, p.stage s enabled⟩
  | setScanEnabled enabled p => p.view enabled

/-- The view of a thread. A call that has not begun looks as it does when it begins. -/
def scannerView : Thread (ScannerOperation S) (RunningCall S) → ScannerView S
  | .ready _ => ⟨false, .idle⟩
  | .running k => k.view

omit [DecidableEq S] in
@[simp] theorem scannerView_ready (o : ScannerOperation S) :
    scannerView (.ready o : Thread _ (RunningCall S)) = ⟨false, .idle⟩ := rfl

omit [DecidableEq S] in
@[simp] theorem scannerView_running (k : RunningCall S) :
    scannerView (.running k : Thread (ScannerOperation S) _) = k.view := rfl

omit [DecidableEq S] in
theorem ScannerOperation.view_start (o : ScannerOperation S) : o.start.view = ⟨false, .idle⟩ := by
  cases o <;> rfl

/-! ### Effects -/

/-- What a step of call `i` does to the shared schedule and to the call's view. -/
inductive ScannerEffect (i : ι) (m : SharedSchedule ι S) :
    ScannerView S → SharedSchedule ι S → ScannerView S → Prop where
  /-- The call begins, iterates, or finds that there is nothing to remove. -/
  | stay {b} : ScannerEffect i m ⟨b, .idle⟩ m ⟨b, .idle⟩
  | enter (h : m.monitor = none) : ScannerEffect i m ⟨false, .idle⟩ (m.hold i) ⟨true, .idle⟩
  | leave : ScannerEffect i m ⟨true, .idle⟩ m.leave ⟨false, .idle⟩
  | register {s} (hs : s ∉ m.schedule.scheduledScanners.keys) :
      ScannerEffect i m ⟨true, .idle⟩ (m.update (·.addEnabledPropertyChangeListener s))
        ⟨true, .adding s⟩
  | readFlag {s} : ScannerEffect i m ⟨true, .adding s⟩ m ⟨true, .adding s⟩
  /-- The flag was read as set. -/
  | addScheduled {s} (h : m.schedule.isShutdown = false) :
      ScannerEffect i m ⟨true, .adding s⟩
        (((m.update fun n => (n.schedule s).put s (some ⟨s, n.nextId⟩)).record (.added i s)).leave)
        ⟨false, .idle⟩
  | add {s} :
      ScannerEffect i m ⟨true, .adding s⟩
        (((m.update (·.put s none)).record (.added i s)).leave) ⟨false, .idle⟩
  /-- The scheduler rejects the task, and the exception leaves the monitor. -/
  | addRejected {s} (h : m.schedule.isShutdown = true) :
      ScannerEffect i m ⟨true, .adding s⟩ m.leave ⟨false, .idle⟩
  | remove {s} (h : m.monitor = none) (hs : s ∈ m.schedule.scheduledScanners.keys) :
      ScannerEffect i m ⟨false, .idle⟩ ((m.update (·.remove s)).record (.removed i s))
        ⟨false, .removed s (m.schedule.scheduledScanners.get s)⟩
  | cancel {s future} :
      ScannerEffect i m ⟨false, .removed s future⟩ (m.update (·.cancelIfNotNull future))
        ⟨false, .unregistering s⟩
  | unregister {s} :
      ScannerEffect i m ⟨false, .unregistering s⟩
        (m.update (·.removeEnabledPropertyChangeListener s)) ⟨false, .idle⟩
  | swap {b s enabled} :
      ScannerEffect i m ⟨b, .idle⟩ (m.update (·.setFlag s enabled))
        ⟨b, .swapped s (m.schedule.enabled s) enabled⟩
  /-- Old and new value are equal, and no event is fired. -/
  | unchanged {b s enabled} :
      ScannerEffect i m ⟨b, .swapped s enabled enabled⟩ m ⟨b, .idle⟩
  | fire {b s old enabled} (h : old ≠ enabled) :
      ScannerEffect i m ⟨b, .swapped s old enabled⟩ m
        ⟨b, .notifying s enabled (m.schedule.enabledListeners s)⟩
  | notified {b s enabled} : ScannerEffect i m ⟨b, .notifying s enabled 0⟩ m ⟨b, .idle⟩
  /-- The listener schedules a task. -/
  | reschedule {b s count} (hm : m.monitor = none ∨ m.monitor = some i)
      (h : m.schedule.isShutdown = false) :
      ScannerEffect i m ⟨b, .notifying s true (count + 1)⟩
        (m.update fun n => ((n.schedule s).put s (some ⟨s, n.nextId⟩)).cancelIfNotNull
          (n.scheduledScanners.get s)) ⟨b, .notifying s true count⟩
  /-- The listener cancels the stored task. -/
  | unschedule {b s count} (hm : m.monitor = none ∨ m.monitor = some i) :
      ScannerEffect i m ⟨b, .notifying s false (count + 1)⟩
        (m.update fun n => n.cancelIfNotNull (n.scheduledScanners.get s))
        ⟨b, .notifying s false count⟩
  /-- The scheduler rejects the task that the listener is to schedule. -/
  | reject {b s count} (h : m.schedule.isShutdown = true) :
      ScannerEffect i m ⟨b, .notifying s true (count + 1)⟩ m ⟨b, .idle⟩

section Effects

variable {i : ι} {m m' : SharedSchedule ι S} {v v' : ScannerView S} {s : S} {enabled : Bool}

omit [DecidableEq ι] in
/-- What has been recorded stays recorded. -/
theorem ScannerEffect.mem_log (h : ScannerEffect i m v m' v') {e : ScannerEvent ι S}
    (he : e ∈ m.log) : e ∈ m'.log := by
  cases h with
  | addScheduled | add | remove => exact List.mem_append_left _ he
  | _ => exact he

omit [DecidableEq ι] [DecidableEq S] in
theorem map_enter_eq_some {α : Type} {p p' : α} (h : (m.enter i).map (·, p) = some (m', p')) :
    m.monitor = none ∧ m' = m.hold i ∧ p' = p := by
  obtain ⟨m₁, hm, h⟩ := Option.map_eq_some_iff.mp h
  obtain ⟨rfl, rfl⟩ := Prod.mk.inj h
  obtain ⟨hfree, hm⟩ := Option.ite_none_right_eq_some.mp hm
  exact ⟨by simpa using hfree, (Option.some.inj hm).symm, rfl⟩

omit [DecidableEq ι] in
theorem effect_of_addScanner {p p' : AddScannerPoint} (h : m.addScanner i s p = some (m', p')) :
    ScannerEffect i m (p.view s) m' (p'.view s) := by
  cases p with
  | entry =>
    obtain ⟨hfree, rfl, rfl⟩ := map_enter_eq_some h
    exact .enter hfree
  | locked =>
    simp only [SharedSchedule.addScanner] at h
    split at h
    · obtain ⟨rfl, rfl⟩ := Prod.mk.inj (Option.some.inj h)
      exact .leave
    · rename_i hs
      obtain ⟨rfl, rfl⟩ := Prod.mk.inj (Option.some.inj h)
      exact .register fun hmem => hs (ScannerSchedule.isAdded_iff.mpr hmem)
  | listening =>
    obtain ⟨rfl, rfl⟩ := Prod.mk.inj (Option.some.inj h)
    exact .readFlag
  | read enabled =>
    simp only [SharedSchedule.addScanner, ScannerSchedule.scheduleScanner] at h
    cases enabled with
    | false =>
      obtain ⟨rfl, rfl⟩ := Prod.mk.inj (Option.some.inj h)
      exact .add
    | true =>
      cases hdown : m.schedule.isShutdown with
      | true =>
        simp only [hdown, if_true] at h
        obtain ⟨rfl, rfl⟩ := Prod.mk.inj (Option.some.inj h)
        exact .addRejected hdown
      | false =>
        simp only [hdown, if_true] at h
        obtain ⟨rfl, rfl⟩ := Prod.mk.inj (Option.some.inj h)
        exact .addScheduled hdown
  | returned added => cases h
  | thrown => cases h

omit [DecidableEq ι] in
theorem effect_of_removeScanner {p p' : RemoveScannerPoint S}
    (h : m.removeScanner i s p = some (m', p')) :
    ScannerEffect i m (p.view s) m' (p'.view s) := by
  cases p with
  | entry =>
    obtain ⟨hfree, h⟩ := Option.ite_none_right_eq_some.mp h
    split at h
    · rename_i hs
      obtain ⟨rfl, rfl⟩ := Prod.mk.inj (Option.some.inj h)
      exact .remove (by simpa using hfree) (ScannerSchedule.isAdded_iff.mp hs)
    · obtain ⟨rfl, rfl⟩ := Prod.mk.inj (Option.some.inj h)
      exact .stay
  | removed future =>
    obtain ⟨rfl, rfl⟩ := Prod.mk.inj (Option.some.inj h)
    exact .cancel
  | cancelled =>
    obtain ⟨rfl, rfl⟩ := Prod.mk.inj (Option.some.inj h)
    exact .unregister
  | returned removed => cases h

/-- A step of `setEnabled`, inside the monitor or not. -/
theorem effect_of_setEnabled {p p' : SetEnabledPoint} (b : Bool)
    (h : m.setEnabled i s enabled p = some (m', p')) :
    ScannerEffect i m ⟨b, p.stage s enabled⟩ m' ⟨b, p'.stage s enabled⟩ := by
  cases p with
  | entry =>
    obtain ⟨rfl, rfl⟩ := Prod.mk.inj (Option.some.inj h)
    exact .swap
  | swapped old =>
    obtain ⟨rfl, rfl⟩ := Prod.mk.inj (Option.some.inj h)
    by_cases he : old = enabled
    · subst he
      rw [if_pos rfl]
      exact .unchanged
    · rw [if_neg he]
      exact .fire he
  | notifying count =>
    cases count with
    | zero =>
      obtain ⟨rfl, rfl⟩ := Prod.mk.inj (Option.some.inj h)
      exact .notified
    | succ count =>
      obtain ⟨hm, h⟩ := Option.ite_none_right_eq_some.mp h
      cases enabled with
      | false =>
        rw [ScannerSchedule.propertyChange_false] at h
        obtain ⟨rfl, rfl⟩ := Prod.mk.inj (Option.some.inj h)
        exact .unschedule hm
      | true =>
        cases hdown : m.schedule.isShutdown with
        | false =>
          rw [ScannerSchedule.propertyChange_true hdown] at h
          obtain ⟨rfl, rfl⟩ := Prod.mk.inj (Option.some.inj h)
          exact .reschedule hm hdown
        | true =>
          simp only [ScannerSchedule.propertyChange, ScannerSchedule.scheduleScanner, hdown,
            if_true] at h
          obtain ⟨rfl, rfl⟩ := Prod.mk.inj (Option.some.inj h)
          exact .reject hdown
  | returned => cases h
  | thrown => cases h

theorem effect_of_setScanEnabled {order : List S} {p p' : SetScanEnabledPoint S}
    (h : m.setScanEnabled i enabled order p = some (m', p')) :
    ScannerEffect i m (p.view enabled) m' (p'.view enabled) := by
  cases p with
  | entry =>
    obtain ⟨-, h⟩ := Option.ite_none_right_eq_some.mp h
    obtain ⟨hfree, rfl, rfl⟩ := map_enter_eq_some h
    exact .enter hfree
  | iterating rest modCount =>
    cases rest with
    | nil =>
      obtain ⟨rfl, rfl⟩ := Prod.mk.inj (Option.some.inj h)
      exact .leave
    | cons s rest =>
      simp only [SharedSchedule.setScanEnabled] at h
      split at h
      · obtain ⟨rfl, rfl⟩ := Prod.mk.inj (Option.some.inj h)
        exact .stay
      · obtain ⟨rfl, rfl⟩ := Prod.mk.inj (Option.some.inj h)
        exact .leave
  | setting s p rest modCount =>
    cases p with
    | returned =>
      obtain ⟨rfl, rfl⟩ := Prod.mk.inj (Option.some.inj h)
      exact .stay
    | thrown =>
      obtain ⟨rfl, rfl⟩ := Prod.mk.inj (Option.some.inj h)
      exact .leave
    | _ =>
      simp only [SharedSchedule.setScanEnabled] at h
      obtain ⟨⟨m₁, p₁⟩, hp, h⟩ := Option.map_eq_some_iff.mp h
      obtain ⟨rfl, rfl⟩ := Prod.mk.inj h
      exact effect_of_setEnabled true hp
  | returned => cases h
  | thrown => cases h

/-- **The list of effects is complete.** -/
theorem effect_of_next {order : List S} {k k' : RunningCall S}
    (h : k.next i order m = some (m', k')) : ScannerEffect i m k.view m' k'.view := by
  cases k <;> obtain ⟨⟨m₁, p₁⟩, hp, h⟩ := Option.map_eq_some_iff.mp h <;>
    obtain ⟨rfl, rfl⟩ := Prod.mk.inj h
  case addScanner => exact effect_of_addScanner hp
  case removeScanner => exact effect_of_removeScanner hp
  case setEnabled => exact effect_of_setEnabled false hp
  case setScanEnabled => exact effect_of_setScanEnabled hp

variable {n : ScannerSchedule S} {order : List S} {c c' : ScannerConfig ι S}

/-- Every step of the machine is an effect of the thread that takes it. -/
theorem effect_of_scannerStep (h : (sharedMachine ι n).step c (i, order) = some c') :
    ScannerEffect i c.shared (scannerView (c.thread i)) c'.shared (scannerView (c'.thread i)) := by
  obtain ⟨o, ho, rfl⟩ | ⟨k, m', k', hk, hn, rfl⟩ := Interleaving.step_cases h
  · simpa [ho, o.view_start] using ScannerEffect.stay (b := false)
  · simpa [hk] using effect_of_next hn

variable {G : SharedSchedule ι S → Prop} {A : ι → SharedSchedule ι S → ScannerView S → Prop}
  {P : ScannerConfig ι S → ι × List S → Prop}

/-- **The invariant rule.** `A i` is asserted of the view of call `i`. An effect keeps the shared
assertion and the acting call's own, and does not disturb another's. -/
theorem scanner_invariant (h : (sharedMachine ι n).ReachableOf P c)
    (hinit : G ⟨n, none, []⟩ ∧ ∀ i, A i ⟨n, none, []⟩ ⟨false, .idle⟩)
    (hown : ∀ c i order m' v v', (sharedMachine ι n).ReachableOf P c → G c.shared →
      (∀ j, A j c.shared (scannerView (c.thread j))) → P c (i, order) →
      scannerView (c.thread i) = v → ScannerEffect i c.shared v m' v' → G m' ∧ A i m' v')
    (hother : ∀ c i order m' v v' j, (sharedMachine ι n).ReachableOf P c → G c.shared →
      (∀ j, A j c.shared (scannerView (c.thread j))) → P c (i, order) →
      scannerView (c.thread i) = v → ScannerEffect i c.shared v m' v' → j ≠ i →
      A j m' (scannerView (c.thread j))) :
    G c.shared ∧ ∀ i, A i c.shared (scannerView (c.thread i)) := by
  refine Interleaving.owickiGries (G := G) (J := fun i m t => A i m (scannerView t)) h
    ⟨hinit.1, fun i _ => hinit.2 i⟩ ?_ ?_
  · intro c i order c' hr hc hP hs
    exact hown c i order _ _ _ hr hc.1 hc.2 hP rfl (effect_of_scannerStep hs)
  · intro c i order c' j hr hc hP hs hj
    exact hother c i order _ _ _ j hr hc.1 hc.2 hP rfl (effect_of_scannerStep hs) hj

/-- A call inside the monitor is the one that the monitor records. -/
theorem scannerMonitor_eq_of_inside (h : (sharedMachine ι n).ReachableOf P c) (i : ι)
    (hi : (scannerView (c.thread i)).inside = true) : c.shared.monitor = some i := by
  refine (scanner_invariant (G := fun _ => True)
    (A := fun i m v => v.inside = true → m.monitor = some i) h ?_ ?_ ?_).2 i hi
  · exact ⟨trivial, fun i hi => by cases hi⟩
  · intro c i order m' v v' _ _ hA _ hv heff
    have hi := hA i
    rw [hv] at hi
    refine ⟨trivial, ?_⟩
    cases heff <;> simp_all
  · intro c i order m' v v' j _ _ hA _ hv heff hj hin
    have hi := hA i
    have hmon := hA j hin
    rw [hv] at hi
    cases heff with
    | enter hfree => simp [hfree] at hmon
    | leave | addScheduled | add | addRejected =>
      exact absurd (Option.some.inj (hmon.symm.trans (hi rfl))) hj
    | _ => simpa using hmon

end Effects

end Shabdiz
