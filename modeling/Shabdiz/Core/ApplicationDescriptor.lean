import Shabdiz.Core.AbstractApplicationManager
import Mathlib.Tactic.Simps.Basic

/-!
# Application descriptors, one atomic step at a time

`ApplicationDescriptor` caches the state of an application instance and tells listeners when it
changes. Its methods run concurrently and do not agree on how: `setApplicationState` and the
check of `awaitAnyOfStates` hold the descriptor's monitor, `compareAndSetApplicationState` swaps
the state and fires the event without it.

Each method is a function from its control point to the next, one atomic step per call: enter or
leave the monitor, read or swap the state, add or remove a listener, fire the event. A step that
has to wait is `none`.

## The log

`log` is a history variable. Every step that means something to an observer appends an event, and
no step reads it: the state is a field of its own, and `log` records in which order it was read
and written. Statements such as "after the awaiter had checked the state" are about its order.

## Main definitions

* `ApplicationDescriptor` — the fields the methods share, with the log
* `awaitAnyOfStates`, `getApplicationState`, `setApplicationState`,
  `compareAndSetApplicationState` — the methods
* `firePropertyChange` — the event, delivered to the listeners registered when it is fired
-/

namespace Shabdiz

/-- What a step on a descriptor records. `i` is the call that took the step. -/
inductive Event (ι ρ : Type) where
  /-- `awaitAnyOfStates` evaluated `isInAnyOfStates`. -/
  | checked (i : ι)
  /-- The state reference was swapped from `old` to `new`. -/
  | wrote (i : ι) (old new : ApplicationState)
  /-- The event of a swap was fired. -/
  | fired (i : ι)
  /-- `getApplicationState` returned `state`. -/
  | read (i : ι) (state : ApplicationState)
  /-- `probeState` returned `new`; `called` tells whether the application call succeeded. -/
  | probed (i : ι) (called : Bool) (new : ApplicationState)
  /-- `manager.deploy` returned `reference`. -/
  | deployed (i : ι) (reference : ρ)
  /-- `setApplicationReference(reference)`. -/
  | stored (i : ι) (reference : ρ)
  /-- `manager.kill` returned normally. -/
  | killed (i : ι)
deriving DecidableEq

/-- The call that an event belongs to. -/
def Event.owner {ι ρ : Type} : Event ι ρ → ι
  | checked i => i
  | wrote i _ _ => i
  | fired i => i
  | read i _ => i
  | probed i _ _ => i
  | deployed i _ => i
  | stored i _ => i
  | killed i => i

/-- Whether an event tells nothing about the state reference and its listeners. -/
def Event.quiet {ι ρ : Type} : Event ι ρ → Bool
  | wrote _ _ _ => false
  | fired _ => false
  | _ => true

/-- An event of one call is not the event that another call has just recorded. -/
theorem Event.mem_concat_of_owner_ne {ι ρ : Type} {x e : Event ι ρ} {log : List (Event ι ρ)}
    (h : e.owner ≠ x.owner) : x ∈ log ++ [e] ↔ x ∈ log := by
  have hne : x ≠ e := fun hx => h (hx ▸ rfl)
  simp [hne]

/-- A listener that an `awaitAnyOfStates` call waits on. -/
structure LatchedStateChangeListener (ι : Type) where
  /-- The call that made the listener. -/
  owner : ι
  states : List ApplicationState
deriving DecidableEq

/-- The descriptor as its callers share it, together with the instances its manager has started
and not ended. -/
structure ApplicationDescriptor (ι ρ : Type) where
  state : ApplicationState
  applicationReference : Option ρ
  /-- The call inside a `synchronized` method or block. -/
  monitor : Option ι
  /-- The registered listeners, in the order they were added. -/
  stateChangeListeners : List (LatchedStateChangeListener ι)
  /-- The calls whose latch has been counted down. -/
  countedDown : List ι
  /-- The live instances of the application. -/
  alive : List ρ
  log : List (Event ι ρ)

namespace ApplicationDescriptor

variable {ι ρ : Type}

/-- A new descriptor: no instance, in state `UNKNOWN`. -/
@[simps]
def new : ApplicationDescriptor ι ρ where
  state := .unknown
  applicationReference := none
  monitor := none
  stateChangeListeners := []
  countedDown := []
  alive := []
  log := []

/-! ### Atomic steps -/

/-- The monitor is entered. -/
@[simps]
def hold (i : ι) (d : ApplicationDescriptor ι ρ) : ApplicationDescriptor ι ρ :=
  { d with monitor := some i }

/-- Enter the monitor, if no other call is inside. -/
def enter (i : ι) (d : ApplicationDescriptor ι ρ) : Option (ApplicationDescriptor ι ρ) :=
  if d.monitor.isNone then some (d.hold i) else none

/-- Leave the monitor. -/
@[simps]
def leave (d : ApplicationDescriptor ι ρ) : ApplicationDescriptor ι ρ := { d with monitor := none }

/-- Append an event to the log. -/
@[simps]
def record (e : Event ι ρ) (d : ApplicationDescriptor ι ρ) : ApplicationDescriptor ι ρ :=
  { d with log := d.log ++ [e] }

/-- Swap the state reference. -/
@[simps]
def swap (i : ι) (new : ApplicationState) (d : ApplicationDescriptor ι ρ) :
    ApplicationDescriptor ι ρ :=
  { d with state := new, log := d.log ++ [.wrote i d.state new] }

/-- Whether the state of the descriptor is one of the given states. -/
def isInAnyOfStates (states : List ApplicationState) (d : ApplicationDescriptor ι ρ) : Bool :=
  ArrayUtil.contains d.state states

/-- Register a listener; the property change support keeps them in this order. -/
@[simps]
def addStateChangeListener (l : LatchedStateChangeListener ι) (d : ApplicationDescriptor ι ρ) :
    ApplicationDescriptor ι ρ :=
  { d with stateChangeListeners := d.stateChangeListeners ++ [l] }

/-- Take the first registration of a listener out, if there is one. -/
@[simps]
def removeStateChangeListener [DecidableEq ι] (l : LatchedStateChangeListener ι)
    (d : ApplicationDescriptor ι ρ) : ApplicationDescriptor ι ρ :=
  { d with stateChangeListeners := d.stateChangeListeners.erase l }

/-- The calls whose latch an event with new value `new` counts down. -/
def latchesMatching (new : ApplicationState) (d : ApplicationDescriptor ι ρ) : List ι :=
  (d.stateChangeListeners.filter fun l => ArrayUtil.contains new l.states).map fun l => l.owner

/-- Fire the state change event: the registered listeners are notified, unless old and new value
are equal. -/
@[simps]
def firePropertyChange (i : ι) (old new : ApplicationState) (d : ApplicationDescriptor ι ρ) :
    ApplicationDescriptor ι ρ :=
  { d with
    countedDown := if old = new then d.countedDown else d.countedDown ++ d.latchesMatching new
    log := d.log ++ [.fired i] }

end ApplicationDescriptor

open ApplicationDescriptor

variable {ι ρ : Type}

/-! ### `getApplicationState` -/

/-- Control points of the synchronized `getApplicationState`. -/
inductive GetPoint where
  | entry
  | locked
  | read (state : ApplicationState)
  | returned (state : ApplicationState)
deriving DecidableEq

/-- The next step of a call of the getter, which reads the state inside the monitor. -/
def getApplicationState (i : ι) (d : ApplicationDescriptor ι ρ) :
    GetPoint → Option (ApplicationDescriptor ι ρ × GetPoint)
  | .entry => (d.enter i).map (·, .locked)
  | .locked => some (d.record (.read i d.state), .read d.state)
  | .read state => some (d.leave, .returned state)
  | .returned _ => none

/-! ### `setApplicationState` -/

/-- Control points of the synchronized `setApplicationState`. -/
inductive SetPoint where
  | entry
  | locked
  | swapped (old : ApplicationState)
  | fired
  | returned
deriving DecidableEq

/-- Whether the call has not returned. -/
def SetPoint.inFlight : SetPoint → Bool
  | returned => false
  | _ => true

/-- The next step of a call of the setter: it swaps the state and fires inside the monitor. -/
def setApplicationState (i : ι) (new : ApplicationState) (d : ApplicationDescriptor ι ρ) :
    SetPoint → Option (ApplicationDescriptor ι ρ × SetPoint)
  | .entry => (d.enter i).map (·, .locked)
  | .locked => some (d.swap i new, .swapped d.state)
  | .swapped old => some (d.firePropertyChange i old new, .fired)
  | .fired => some (d.leave, .returned)
  | .returned => none

/-! ### `compareAndSetApplicationState` -/

/-- Control points of `compareAndSetApplicationState`, which is not synchronized. -/
inductive CasPoint where
  | entry
  | swapped
  | returned (successfullySet : Bool)
deriving DecidableEq

/-- Whether the call has not returned. -/
def CasPoint.inFlight : CasPoint → Bool
  | returned _ => false
  | _ => true

/-- The next step of a compare-and-set, which takes no monitor at all: a swap, and then the firing
of the change. -/
def compareAndSetApplicationState (i : ι) (expect new : ApplicationState)
    (d : ApplicationDescriptor ι ρ) : CasPoint → Option (ApplicationDescriptor ι ρ × CasPoint)
  | .entry =>
    if d.state = expect then some (d.swap i new, .swapped) else some (d, .returned false)
  | .swapped => some (d.firePropertyChange i expect new, .returned true)
  | .returned _ => none

/-! ### `awaitAnyOfStates` -/

/-- Control points of `awaitAnyOfStates`. -/
inductive AwaitPoint where
  | entry
  | locked
  /-- The state is in none of the states; the listener is yet to be made and added. -/
  | checked
  | added
  /-- The state is in one of the states; no listener is needed. -/
  | satisfied
  /-- Blocked on the latch. -/
  | waiting
  /-- In the `finally` block. -/
  | removing (interrupted : Bool)
  | returned
  | interrupted
deriving DecidableEq

/-- `interrupt` is the environment's choice to interrupt the thread. It has an effect only while
the thread is blocked on the latch. -/
def awaitAnyOfStates [DecidableEq ι] (i : ι) (states : List ApplicationState) (interrupt : Bool)
    (d : ApplicationDescriptor ι ρ) : AwaitPoint → Option (ApplicationDescriptor ι ρ × AwaitPoint)
  | .entry => (d.enter i).map (·, .locked)
  | .locked =>
    some (d.record (.checked i), if d.isInAnyOfStates states then .satisfied else .checked)
  | .checked => some (d.addStateChangeListener ⟨i, states⟩, .added)
  | .added => some (d.leave, .waiting)
  | .satisfied => some (d.leave, .returned)
  | .waiting =>
    if interrupt then some (d, .removing true)
    else if i ∈ d.countedDown then some (d, .removing false)
    else none
  | .removing interrupted =>
    some (d.removeStateChangeListener ⟨i, states⟩,
      if interrupted then .interrupted else .returned)
  | .returned => none
  | .interrupted => none

end Shabdiz
