import Mathlib.Data.Finset.Card
import Mathlib.Data.Finset.Dedup
import Mathlib.Tactic.Simps.Basic

/-!
# The scanners of a network and their schedule

A network keeps its scanners in the map `scheduled_scanners`, each with the future of its periodic
task, if it has been scheduled. A scanner has its own flag `enabled` and tells listeners when the
flag changes; the network's `enabled_change_listener` then schedules or cancels. So four things
have to stay in step: membership, the stored future, the flag, and the registered listener.

Here the calls are made one after another. `ScannerSchedule` is what they read and write, and each
method is a function on it with what it returns or throws. `setScanEnabled` iterates over the map
while the listener that it causes to be called puts into the same map: the iterator's check for
concurrent modification is part of the model, and so is the order of iteration, which is
unspecified and therefore a parameter.

## Main definitions

* `ScheduledScanners`, `ScannerSchedule` — the map, and everything the methods share
* `addScanner`, `removeScanner`, `setEnabled`, `setScanEnabled`, `shutdown` — the methods
* `ScannerSchedule.liveTasks` — the tasks of a scanner that were scheduled and not cancelled
* `ScannerSchedule.OnlyTouches` — what a call about one scanner leaves alone

## Main results

* `ScannerSchedule.propertyChange_true`, `propertyChange_false` — what the listener does
* `addScanner_of_enabled`, `removeScanner_of_mem`, `setEnabled_of_heard`, … — the methods, case by
  case
-/

namespace Shabdiz

/-- The future of a periodic task, made by one call of `scheduleScanner`. -/
structure ScheduledFuture (S : Type) where
  scanner : S
  id : Nat
deriving DecidableEq

/-- What scheduling and iterating can throw. -/
inductive ScannerException where
  /-- The scheduler has been shut down. -/
  | rejectedExecution
  /-- The map was modified structurally during an iteration. -/
  | concurrentModification
deriving DecidableEq

/-- The `HashMap` from scanners to futures. -/
structure ScheduledScanners (S : Type) where
  keys : Finset S
  /-- The future of a key; `none` is `null`. -/
  get : S → Option (ScheduledFuture S)
  /-- The number of structural modifications. -/
  modCount : Nat

namespace ScheduledScanners

variable {S : Type} [DecidableEq S]

/-- The map without entries. -/
@[simps]
def empty : ScheduledScanners S where
  keys := ∅
  get _ := none
  modCount := 0

/-- Associate `s` with `future`. Only a new key is a structural modification. -/
@[simps]
def put (s : S) (future : Option (ScheduledFuture S)) (m : ScheduledScanners S) :
    ScheduledScanners S where
  keys := insert s m.keys
  get := Function.update m.get s future
  modCount := if s ∈ m.keys then m.modCount else m.modCount + 1

/-- `remove(scanner)`: a modification only if the key was there. -/
@[simps]
def remove (s : S) (m : ScheduledScanners S) : ScheduledScanners S where
  keys := m.keys.erase s
  get := Function.update m.get s none
  modCount := if s ∈ m.keys then m.modCount + 1 else m.modCount

/-- Whether `order` is an order in which an iterator may yield the keys. -/
def Enumerates (order : List S) (m : ScheduledScanners S) : Prop :=
  order.Nodup ∧ order.toFinset = m.keys

instance (order : List S) (m : ScheduledScanners S) : Decidable (m.Enumerates order) :=
  inferInstanceAs (Decidable (_ ∧ _))

end ScheduledScanners

/-- The scanners of the program as one network sees them: their flags, where the network's
`enabled_change_listener` is registered, and the network's map and scheduler. -/
structure ScannerSchedule (S : Type) where
  /-- `Scanner.enabled`. -/
  enabled : S → Bool
  /-- How often `enabled_change_listener` is registered on a scanner. -/
  enabledListeners : S → Nat
  scheduledScanners : ScheduledScanners S
  /-- The periodic tasks that were scheduled and not cancelled. -/
  live : Finset (ScheduledFuture S)
  /-- The number of futures made. -/
  nextId : Nat
  /-- Whether `scanner_scheduler` has been shut down. -/
  isShutdown : Bool

namespace ScannerSchedule

variable {S : Type} [DecidableEq S]

/-- No scanner is added yet. -/
@[simps]
def empty (enabled : S → Bool) : ScannerSchedule S where
  enabled := enabled
  enabledListeners _ := 0
  scheduledScanners := .empty
  live := ∅
  nextId := 0
  isShutdown := false

/-! ### Single reads and writes -/

/-- Whether the map has the scanner as a key. -/
def isAdded (s : S) (n : ScannerSchedule S) : Bool := decide (s ∈ n.scheduledScanners.keys)

/-- The executor no longer runs the future. -/
def isDone (future : ScheduledFuture S) (n : ScannerSchedule S) : Bool :=
  decide (future ∉ n.live)

/-- A new periodic task of `s`. Its future is `⟨s, n.nextId⟩`. -/
@[simps]
def schedule (s : S) (n : ScannerSchedule S) : ScannerSchedule S :=
  { n with live := insert ⟨s, n.nextId⟩ n.live, nextId := n.nextId + 1 }

/-- `scheduleWithFixedDelay`, unless the scheduler has been shut down. -/
def scheduleScanner (s : S) (n : ScannerSchedule S) :
    Option (ScannerSchedule S × ScheduledFuture S) :=
  if n.isShutdown then none else some (n.schedule s, ⟨s, n.nextId⟩)

/-- The executor runs the future no more. -/
@[simps]
def cancel (future : ScheduledFuture S) (n : ScannerSchedule S) : ScannerSchedule S :=
  { n with live := n.live.erase future }

/-- Cancel a future that may be missing. -/
def cancelIfNotNull (future : Option (ScheduledFuture S)) (n : ScannerSchedule S) :
    ScannerSchedule S :=
  match future with
  | none => n
  | some future => n.cancel future

/-- Put a scanner and its future into the map. -/
@[simps]
def put (s : S) (future : Option (ScheduledFuture S)) (n : ScannerSchedule S) :
    ScannerSchedule S :=
  { n with scheduledScanners := n.scheduledScanners.put s future }

/-- Take a scanner out of the map. -/
@[simps]
def remove (s : S) (n : ScannerSchedule S) : ScannerSchedule S :=
  { n with scheduledScanners := n.scheduledScanners.remove s }

/-- Register the listener with the scanner once more. -/
@[simps]
def addEnabledPropertyChangeListener (s : S) (n : ScannerSchedule S) : ScannerSchedule S :=
  { n with enabledListeners := Function.update n.enabledListeners s (n.enabledListeners s + 1) }

/-- Take one registration of the listener away. -/
@[simps]
def removeEnabledPropertyChangeListener (s : S) (n : ScannerSchedule S) : ScannerSchedule S :=
  { n with enabledListeners := Function.update n.enabledListeners s (n.enabledListeners s - 1) }

/-- `getAndSet` of the flag, without the value it returns. -/
@[simps]
def setFlag (s : S) (enabled : Bool) (n : ScannerSchedule S) : ScannerSchedule S :=
  { n with enabled := Function.update n.enabled s enabled }

/-- Sequencing: an exception ends the call. -/
def andThen {α : Type} (r : ScannerSchedule S × Except ScannerException Unit)
    (next : ScannerSchedule S → ScannerSchedule S × Except ScannerException α) :
    ScannerSchedule S × Except ScannerException α :=
  match r with
  | (n, .ok ()) => next n
  | (n, .error e) => (n, .error e)

/-! ### `setEnabled` and its listener -/

/-- The synchronized block of `ScannerEnabledPropertyChangeListener.propertyChange`. -/
def propertyChange (s : S) (enabled : Bool) (n : ScannerSchedule S) :
    ScannerSchedule S × Except ScannerException Unit :=
  if enabled then
    match n.scheduleScanner s with
    | none => (n, .error .rejectedExecution)
    | some (n₁, future) =>
      let n₂ := n₁.put s (some future)
      match n.scheduledScanners.get s with
      | none => (n₂, .ok ())
      | some oldFuture => (if n₂.isDone oldFuture then n₂ else n₂.cancel oldFuture, .ok ())
  else (n.cancelIfNotNull (n.scheduledScanners.get s), .ok ())

/-- Notify the listener `count` times, as often as it is registered. An exception ends the
delivery. -/
def notifyListeners (s : S) (enabled : Bool) :
    Nat → ScannerSchedule S → ScannerSchedule S × Except ScannerException Unit
  | 0, n => (n, .ok ())
  | count + 1, n => andThen (n.propertyChange s enabled) (notifyListeners s enabled count)

/-- An event is fired if and only if the values differ. -/
def firePropertyChange (s : S) (old new : Bool) (n : ScannerSchedule S) :
    ScannerSchedule S × Except ScannerException Unit :=
  if old = new then (n, .ok ()) else n.notifyListeners s new (n.enabledListeners s)

/-- `setEnabled` of a scanner: set the flag, and fire if that changes it. -/
def setEnabled (s : S) (enabled : Bool) (n : ScannerSchedule S) :
    ScannerSchedule S × Except ScannerException Unit :=
  (n.setFlag s enabled).firePropertyChange s (n.enabled s) enabled

/-! ### The methods of the network -/

/-- `addScanner`: register the listener, schedule the scanner if it is enabled, and put it into the
map. -/
def addScanner (s : S) (n : ScannerSchedule S) :
    ScannerSchedule S × Except ScannerException Bool :=
  if n.isAdded s then (n, .ok false)
  else
    let n₁ := n.addEnabledPropertyChangeListener s
    if n₁.enabled s then
      match n₁.scheduleScanner s with
      | none => (n₁, .error .rejectedExecution)
      | some (n₂, future) => (n₂.put s (some future), .ok true)
    else (n₁.put s none, .ok true)

/-- `removeScanner`: out of the map, the future cancelled, the listener unregistered. -/
def removeScanner (s : S) (n : ScannerSchedule S) :
    ScannerSchedule S × Except ScannerException Bool :=
  if n.isAdded s then
    let n₁ := (n.remove s).cancelIfNotNull (n.scheduledScanners.get s)
    (n₁.removeEnabledPropertyChangeListener s, .ok true)
  else (n, .ok false)

/-- The rest of the iteration of `setScanEnabled`, by an iterator that expects `modCount`. -/
def setScanEnabledFrom (enabled : Bool) (modCount : Nat) :
    List S → ScannerSchedule S → ScannerSchedule S × Except ScannerException Unit
  | [], n => (n, .ok ())
  | s :: rest, n =>
    if n.scheduledScanners.modCount = modCount then
      andThen (n.setEnabled s enabled) (setScanEnabledFrom enabled modCount rest)
    else (n, .error .concurrentModification)

/-- Set the flag of every scanner of the network, in the given order. -/
def setScanEnabled (enabled : Bool) (order : List S) (n : ScannerSchedule S) :
    ScannerSchedule S × Except ScannerException Unit :=
  n.setScanEnabledFrom enabled n.scheduledScanners.modCount order

/-- Cancel the stored futures, in the given order of the keys. -/
def cancelScheduledScanners : List S → ScannerSchedule S → ScannerSchedule S
  | [], n => n
  | s :: rest, n => cancelScheduledScanners rest (n.cancelIfNotNull (n.scheduledScanners.get s))

/-- Shut the executor down: it takes no more scanners. -/
@[simps]
def shutdownNow (n : ScannerSchedule S) : ScannerSchedule S := { n with isShutdown := true }

/-- What `shutdown` does to the scanners: killing the applications and closing the hosts comes
between the cancellations and `shutdownNow`. -/
def shutdown (order : List S) (n : ScannerSchedule S) :
    ScannerSchedule S × Except ScannerException Unit :=
  andThen (n.setScanEnabled false order) fun n₁ =>
    ((n₁.cancelScheduledScanners order).shutdownNow, .ok ())

/-- A new network with its four default scanners. -/
def new (enabled : S → Bool) (autoKill autoDeploy autoRemove status : S) : ScannerSchedule S :=
  let add (s : S) (n : ScannerSchedule S) := (n.addScanner s).1
  add status (add autoRemove (add autoDeploy (add autoKill (empty enabled))))

/-- The live tasks of a scanner. -/
def liveTasks (s : S) (n : ScannerSchedule S) : Finset (ScheduledFuture S) :=
  n.live.filter fun future => future.scanner = s

/-! ### What the single writes do -/

section Writes

variable {s t : S} {n : ScannerSchedule S} {f : ScheduledFuture S}
  {future : Option (ScheduledFuture S)} {enabled : Bool}

@[simp] theorem isAdded_iff : n.isAdded s = true ↔ s ∈ n.scheduledScanners.keys :=
  decide_eq_true_iff

@[simp] theorem cancelIfNotNull_enabled : (n.cancelIfNotNull future).enabled = n.enabled := by
  cases future <;> rfl

@[simp] theorem cancelIfNotNull_enabledListeners :
    (n.cancelIfNotNull future).enabledListeners = n.enabledListeners := by
  cases future <;> rfl

@[simp] theorem cancelIfNotNull_scheduledScanners :
    (n.cancelIfNotNull future).scheduledScanners = n.scheduledScanners := by
  cases future <;> rfl

@[simp] theorem cancelIfNotNull_nextId : (n.cancelIfNotNull future).nextId = n.nextId := by
  cases future <;> rfl

@[simp] theorem cancelIfNotNull_isShutdown :
    (n.cancelIfNotNull future).isShutdown = n.isShutdown := by
  cases future <;> rfl

@[simp] theorem mem_live_cancelIfNotNull :
    f ∈ (n.cancelIfNotNull future).live ↔ f ∈ n.live ∧ future ≠ some f := by
  cases future with
  | none => simp [cancelIfNotNull]
  | some g => simp [cancelIfNotNull, and_comm, eq_comm]

omit [DecidableEq S] in
theorem andThen_of_ok {α : Type} {r : ScannerSchedule S × Except ScannerException Unit}
    {next : ScannerSchedule S → ScannerSchedule S × Except ScannerException α}
    (h : r.2 = .ok ()) : andThen r next = next r.1 := by
  obtain ⟨n, x⟩ := r
  obtain rfl : x = .ok () := h
  rfl

/-- Disabling cancels the stored future. -/
theorem propertyChange_false :
    n.propertyChange s false = (n.cancelIfNotNull (n.scheduledScanners.get s), .ok ()) := by
  simp [propertyChange]

/-- Cancelling a future that is done has no effect. -/
theorem cancel_of_isDone (h : n.isDone f = true) : n.cancel f = n := by
  have hnot : f ∉ n.live := of_decide_eq_true h
  rw [cancel, Finset.erase_eq_of_notMem hnot]

/-- Enabling schedules a task, stores its future and cancels the future stored before: whether that
one is done makes no difference. -/
theorem propertyChange_true (h : n.isShutdown = false) :
    n.propertyChange s true =
      (((n.schedule s).put s (some ⟨s, n.nextId⟩)).cancelIfNotNull (n.scheduledScanners.get s),
        .ok ()) := by
  simp only [propertyChange, scheduleScanner, h, if_true]
  cases n.scheduledScanners.get s with
  | none => rfl
  | some g =>
    simp only [cancelIfNotNull, Bool.false_eq_true, if_false]
    split
    · rw [cancel_of_isDone ‹_›]
    · rfl

end Writes

/-! ### The methods, case by case -/

section Methods

variable {s : S} {n : ScannerSchedule S} {enabled : Bool}

theorem addScanner_of_mem (hs : s ∈ n.scheduledScanners.keys) :
    n.addScanner s = (n, .ok false) := by
  simp [addScanner, isAdded, hs]

theorem addScanner_of_disabled (hs : s ∉ n.scheduledScanners.keys) (he : n.enabled s = false) :
    n.addScanner s = ((n.addEnabledPropertyChangeListener s).put s none, .ok true) := by
  simp [addScanner, isAdded, hs, he]

theorem addScanner_of_enabled (hs : s ∉ n.scheduledScanners.keys) (he : n.enabled s = true)
    (h : n.isShutdown = false) :
    n.addScanner s =
      (((n.addEnabledPropertyChangeListener s).schedule s).put s (some ⟨s, n.nextId⟩),
        .ok true) := by
  simp [addScanner, isAdded, hs, he, scheduleScanner, h]

/-- A scheduler that has been shut down rejects the task when the listener is registered already. -/
theorem addScanner_of_isShutdown (hs : s ∉ n.scheduledScanners.keys) (he : n.enabled s = true)
    (h : n.isShutdown = true) :
    n.addScanner s = (n.addEnabledPropertyChangeListener s, .error .rejectedExecution) := by
  simp [addScanner, isAdded, hs, he, scheduleScanner, h]

theorem removeScanner_of_mem (hs : s ∈ n.scheduledScanners.keys) :
    n.removeScanner s =
      (((n.remove s).cancelIfNotNull
        (n.scheduledScanners.get s)).removeEnabledPropertyChangeListener s, .ok true) := by
  simp [removeScanner, isAdded, hs]

theorem removeScanner_of_notMem (hs : s ∉ n.scheduledScanners.keys) :
    n.removeScanner s = (n, .ok false) := by
  simp [removeScanner, isAdded, hs]

theorem setFlag_self (s : S) (n : ScannerSchedule S) : n.setFlag s (n.enabled s) = n := by
  simp [setFlag]

theorem setEnabled_of_eq (he : n.enabled s = enabled) : n.setEnabled s enabled = (n, .ok ()) := by
  subst he
  simp [setEnabled, firePropertyChange, setFlag_self]

/-- A scanner on which the listener is not registered just changes its flag. -/
theorem setEnabled_of_unheard (hl : n.enabledListeners s = 0) :
    n.setEnabled s enabled = (n.setFlag s enabled, .ok ()) := by
  by_cases he : n.enabled s = enabled
  · rw [setEnabled_of_eq he, ← he, setFlag_self]
  · simp [setEnabled, firePropertyChange, he, hl, notifyListeners]

/-- A scanner on which the listener is registered once notifies it of a change. -/
theorem setEnabled_of_heard (hl : n.enabledListeners s = 1) (he : n.enabled s ≠ enabled)
    {n' : ScannerSchedule S} (h : (n.setFlag s enabled).propertyChange s enabled = (n', .ok ())) :
    n.setEnabled s enabled = (n', .ok ()) := by
  simp [setEnabled, firePropertyChange, he, hl, notifyListeners, h, andThen]

end Methods

/-! ### Frames -/

/-- What a call about `s` leaves alone: everything of the other scanners. -/
structure OnlyTouches (s : S) (n n' : ScannerSchedule S) : Prop where
  isShutdown : n'.isShutdown = n.isShutdown
  keys : ∀ t ≠ s, (t ∈ n'.scheduledScanners.keys ↔ t ∈ n.scheduledScanners.keys)
  enabledListeners : ∀ t ≠ s, n'.enabledListeners t = n.enabledListeners t
  enabled : ∀ t ≠ s, n'.enabled t = n.enabled t
  get : ∀ t ≠ s, n'.scheduledScanners.get t = n.scheduledScanners.get t
  nextId : n.nextId ≤ n'.nextId
  live : ∀ f : ScheduledFuture S, f.scanner ≠ s → (f ∈ n'.live ↔ f ∈ n.live)

section Frames

variable {s : S} {n n₁ n₂ : ScannerSchedule S}

omit [DecidableEq S] in
theorem OnlyTouches.trans (h : OnlyTouches s n n₁) (h' : OnlyTouches s n₁ n₂) :
    OnlyTouches s n n₂ where
  isShutdown := h'.isShutdown.trans h.isShutdown
  keys t ht := (h'.keys t ht).trans (h.keys t ht)
  enabledListeners t ht := (h'.enabledListeners t ht).trans (h.enabledListeners t ht)
  enabled t ht := (h'.enabled t ht).trans (h.enabled t ht)
  get t ht := (h'.get t ht).trans (h.get t ht)
  nextId := h.nextId.trans h'.nextId
  live f hf := (h'.live f hf).trans (h.live f hf)

theorem onlyTouches_put (future : Option (ScheduledFuture S)) :
    OnlyTouches s n (n.put s future) := by
  constructor <;> simp +contextual

theorem onlyTouches_remove : OnlyTouches s n (n.remove s) := by
  constructor <;> simp +contextual

theorem onlyTouches_addEnabledPropertyChangeListener :
    OnlyTouches s n (n.addEnabledPropertyChangeListener s) := by
  constructor <;> simp +contextual

theorem onlyTouches_removeEnabledPropertyChangeListener :
    OnlyTouches s n (n.removeEnabledPropertyChangeListener s) := by
  constructor <;> simp +contextual

theorem onlyTouches_setFlag (enabled : Bool) : OnlyTouches s n (n.setFlag s enabled) := by
  constructor <;> simp +contextual

theorem onlyTouches_schedule : OnlyTouches s n (n.schedule s) := by
  refine ⟨rfl, fun _ _ => Iff.rfl, fun _ _ => rfl, fun _ _ => rfl, fun _ _ => rfl,
    Nat.le_succ _, fun f hf => ?_⟩
  have hne : f ≠ ⟨s, n.nextId⟩ := fun heq => hf (congrArg _ heq)
  simp [hne]

/-- Cancelling a future of `s`. -/
theorem onlyTouches_cancelIfNotNull {future : Option (ScheduledFuture S)}
    (h : ∀ f, future = some f → f.scanner = s) :
    OnlyTouches s n (n.cancelIfNotNull future) := by
  constructor <;> try simp
  intro f hf _ hfuture
  exact hf (h f hfuture)

end Frames

end ScannerSchedule

end Shabdiz
