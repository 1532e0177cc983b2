import Mathlib.Algebra.BigOperators.Group.Finset.Basic
import Mathlib.Algebra.BigOperators.Group.List.Basic
import Mathlib.Algebra.Ring.Int.Defs
import Shabdiz.Concurrency.Machine
import Shabdiz.Core.ApplicationDescriptor

/-!
# Counting the descriptors in each state

`ApplicationStateCounters` has a counter for every state. Its constructor goes through the
descriptors, adds itself to the listeners of each, and counts the state that it then reads. From
then on the events of the descriptor move a descriptor from one counter to another.

Adding the listener and reading the state are two steps. A swap of the state that comes before the
read, but whose event is fired after the listener was added, is counted twice: the read sees the
new state, and the event is delivered. Such an event is called stale here.

The machine has the constructor and any number of calls of `setApplicationState` and
`compareAndSetApplicationState`, which may begin at any time, before, during and after the
construction. Delivering an event is two steps, one for each counter. The class of the counters,
`org.mashti.gauge.Counter`, is a parameter, of which no more is relied on than that it counts.

## Main definitions

* `Write`, `WriteCall` — calls that write the state of a descriptor, with the event they deliver
* `GaugeCounter`, `GaugeCounter.Counts` — a counter, and what is relied on of it
* `ConstructorPoint`, `StateCounters`, `stateCountersMachine` — the constructor and the machine
* `CountersAgree` — the counters agree with the descriptors when nothing is going on
* `DeliversFresh` — a step that does not deliver a stale event

## Main results

* `CountersAccounted.counters_eq`, `countersAgree_iff_stale` — the counters of any run, with what
  stale events have added
* `countersAgree_of_reachableOf` — they agree with the descriptors if no stale event is delivered
-/

namespace Shabdiz

/-! ### Writing a state -/

/-- A call that writes the state of a descriptor. -/
inductive Write where
  | set (new : ApplicationState) (p : SetPoint)
  | compareAndSet (expect new : ApplicationState) (p : CasPoint)
deriving DecidableEq

namespace Write

variable {ι ρ : Type}

/-- The next step of a write, of either kind. -/
def next (i : ι) (d : ApplicationDescriptor ι ρ) :
    Write → Option (ApplicationDescriptor ι ρ × Write)
  | set new p => (setApplicationState i new d p).map fun r => (r.1, set new r.2)
  | compareAndSet expect new p =>
    (compareAndSetApplicationState i expect new d p).map fun r =>
      (r.1, compareAndSet expect new r.2)

/-- The old and the new value of a swap whose event is yet to be fired. -/
def event : Write → Option (ApplicationState × ApplicationState)
  | set new (.swapped old) => some (old, new)
  | compareAndSet expect new .swapped => some (expect, new)
  | _ => none

/-- Whether the call has not returned. -/
def inFlight : Write → Bool
  | set _ p => p.inFlight
  | compareAndSet _ _ p => p.inFlight

/-- Whether the call has not begun to do anything. -/
def atEntry : Write → Bool
  | set _ p => p = .entry
  | compareAndSet _ _ p => p = .entry

/-- **What a step of a write does**: it swaps the state, fires the event of the swap, or has nothing
to do with either. -/
theorem next_cases {i : ι} {d d' : ApplicationDescriptor ι ρ} {w w' : Write}
    (h : w.next i d = some (d', w')) :
    (∃ new, w.event = none ∧ w'.event = some (d.state, new) ∧ d'.state = new) ∨
      (w'.event = none ∧ d'.state = d.state) := by
  cases w with
  | set new p =>
    obtain ⟨⟨d₁, p'⟩, hp, h⟩ := Option.map_eq_some_iff.mp h
    obtain ⟨rfl, rfl⟩ := Prod.mk.inj h
    cases p with
    | entry =>
      obtain ⟨d₂, hd, h⟩ := Option.map_eq_some_iff.mp hp
      obtain ⟨rfl, rfl⟩ := Prod.mk.inj h
      obtain ⟨-, hd⟩ := Option.ite_none_right_eq_some.mp hd
      obtain rfl := Option.some.inj hd
      exact .inr ⟨rfl, rfl⟩
    | locked =>
      obtain ⟨rfl, rfl⟩ := Prod.mk.inj (Option.some.inj hp)
      exact .inl ⟨new, rfl, rfl, rfl⟩
    | swapped old =>
      obtain ⟨rfl, rfl⟩ := Prod.mk.inj (Option.some.inj hp)
      exact .inr ⟨rfl, rfl⟩
    | fired =>
      obtain ⟨rfl, rfl⟩ := Prod.mk.inj (Option.some.inj hp)
      exact .inr ⟨rfl, rfl⟩
    | returned => cases hp
  | compareAndSet expect new p =>
    obtain ⟨⟨d₁, p'⟩, hp, h⟩ := Option.map_eq_some_iff.mp h
    obtain ⟨rfl, rfl⟩ := Prod.mk.inj h
    cases p with
    | entry =>
      simp only [compareAndSetApplicationState] at hp
      split at hp
      · rename_i heq
        obtain ⟨rfl, rfl⟩ := Prod.mk.inj (Option.some.inj hp)
        exact .inl ⟨new, rfl, by rw [heq]; rfl, rfl⟩
      · obtain ⟨rfl, rfl⟩ := Prod.mk.inj (Option.some.inj hp)
        exact .inr ⟨rfl, rfl⟩
    | swapped =>
      obtain ⟨rfl, rfl⟩ := Prod.mk.inj (Option.some.inj hp)
      exact .inr ⟨rfl, rfl⟩
    | returned successfullySet => cases hp

theorem event_eq_none {w : Write} (h : w.inFlight = false) : w.event = none := by
  cases w with
  | set new p => cases p <;> first | rfl | cases h
  | compareAndSet expect new p => cases p <;> first | rfl | cases h

end Write

/-! ### Delivering an event -/

/-- How far the counters have come with an event. -/
inductive Notification where
  | none
  /-- About to decrement the counter of the old state. -/
  | decrement (old new : ApplicationState)
  /-- About to increment the counter of the new state. -/
  | increment (new : ApplicationState)
deriving DecidableEq

/-- `1` for the counter of the state, `0` for another. -/
def unit (state counted : ApplicationState) : ℤ := if counted = state then 1 else 0

/-- What is still to be added to a counter. -/
def Notification.due (state : ApplicationState) : Notification → ℤ
  | .none => 0
  | .decrement old new => unit state new - unit state old
  | .increment new => unit state new

/-- A call on a descriptor. While it delivers an event, the call itself is inside
`firePropertyChange`. -/
structure WriteCall (δ : Type) where
  descriptor : δ
  write : Write
  notification : Notification
  /-- Whether the swap of the call, if its event is yet to be fired, came after the constructor had
  read the state of the descriptor. -/
  afterRead : Bool
deriving DecidableEq

/-- Whether the call has not returned. -/
def WriteCall.inFlight {δ : Type} (c : WriteCall δ) : Bool :=
  c.notification ≠ .none || c.write.inFlight

/-! ### The counters -/

/-- `org.mashti.gauge.Counter`: its constructor and its methods. -/
structure GaugeCounter (γ : Type) where
  new : γ
  increment : γ → γ
  decrement : γ → γ
  get : γ → ℤ

/-- **What is relied on** of a counter. -/
structure GaugeCounter.Counts {γ : Type} (counter : GaugeCounter γ) : Prop where
  new : counter.get counter.new = 0
  increment : ∀ c, counter.get (counter.increment c) = counter.get c + 1
  decrement : ∀ c, counter.get (counter.decrement c) = counter.get c - 1

/-! ### The constructor and the machine -/

/-- The control points of `listenForStateChange`. -/
inductive ConstructorPoint (δ : Type) where
  /-- At the head of the loop. The constructor ends when no descriptor is left. -/
  | loop (rest : List δ)
  /-- The listener was added. Inside `getApplicationState`; once it has returned, about to increment
  the counter of the state that was read. -/
  | reading (d : δ) (rest : List δ) (p : GetPoint)
deriving DecidableEq

/-- The descriptors, the counters, the constructor and the calls. In a descriptor's monitor,
`none` is the constructor. -/
structure StateCounters (δ γ : Type) where
  descriptor : δ → ApplicationDescriptor (Option ℕ) Unit
  /-- Whether the counters are a listener of a descriptor. -/
  listening : δ → Bool
  counters : ApplicationState → γ
  constructor : ConstructorPoint δ
  calls : List (WriteCall δ)
  /-- The descriptors whose state the constructor has read. -/
  read : Finset δ
  /-- What stale events have added to each counter. -/
  stale : ApplicationState → ℤ

/-- What may happen. -/
inductive CountersAction (δ : Type) where
  /-- A call is made. -/
  | begin (d : δ) (w : Write)
  /-- A call takes a step. -/
  | call (i : ℕ)
  /-- The constructor takes a step. -/
  | construct

namespace StateCounters

variable {δ γ : Type} [DecidableEq δ] (counter : GaugeCounter γ)

/-- What follows when a call fires an event: the counters are notified if they are a listener, and
the old state is not the new one. -/
def notificationOf (s : StateCounters δ γ) (c : WriteCall δ) : Notification :=
  match c.write.event with
  | none => .none
  | some (old, new) => if s.listening c.descriptor && old ≠ new then .decrement old new else .none

/-- `propertyChange`, and the steps of the call itself. -/
def nextCall (s : StateCounters δ γ) (i : ℕ) (c : WriteCall δ) : Option (StateCounters δ γ) :=
  match c.notification with
  | .decrement old new =>
    some { s with
      counters := Function.update s.counters old (counter.decrement (s.counters old))
      calls := s.calls.set i { c with notification := .increment new } }
  | .increment new =>
    some { s with
      counters := Function.update s.counters new (counter.increment (s.counters new))
      calls := s.calls.set i { c with notification := .none } }
  | .none =>
    (c.write.next (some i) (s.descriptor c.descriptor)).map fun r =>
      { s with
        descriptor := Function.update s.descriptor c.descriptor r.1
        calls := s.calls.set i
          { c with
            write := r.2
            notification := s.notificationOf c
            afterRead := r.2.event.isSome && decide (c.descriptor ∈ s.read) }
        stale := fun state =>
          s.stale state + if c.afterRead then 0 else (s.notificationOf c).due state }

/-- `listenForStateChange`. -/
def nextConstructor (s : StateCounters δ γ) : Option (StateCounters δ γ) :=
  match s.constructor with
  | .loop [] => none
  | .loop (d :: rest) =>
    some { s with
      listening := Function.update s.listening d true
      constructor := .reading d rest .entry }
  | .reading _ rest (.returned state) =>
    some { s with
      counters := Function.update s.counters state (counter.increment (s.counters state))
      constructor := .loop rest }
  | .reading d rest p =>
    (getApplicationState none (s.descriptor d) p).map fun r =>
      { s with
        descriptor := Function.update s.descriptor d r.1
        constructor := .reading d rest r.2
        read := if p = .locked then insert d s.read else s.read }

/-- One step of the constructor or of a call. -/
def step (s : StateCounters δ γ) : CountersAction δ → Option (StateCounters δ γ)
  | .begin d w =>
    if w.atEntry then some { s with calls := s.calls ++ [⟨d, w, .none, false⟩] } else none
  | .call i => (s.calls[i]?).bind fun c => s.nextCall counter i c
  | .construct => s.nextConstructor counter

/-- Before anything has happened: the counters are made, and the constructor is about to listen to
the descriptors. -/
def start (descriptors : List δ) : StateCounters δ γ where
  descriptor _ := .new
  listening _ := false
  counters _ := counter.new
  constructor := .loop descriptors
  calls := []
  read := ∅
  stale _ := 0

end StateCounters

section Machine

variable {δ γ : Type} [DecidableEq δ] (counter : GaugeCounter γ)

/-- The machine of the counters over some descriptors, in the order in which the constructor goes
through them. -/
def stateCountersMachine (descriptors : List δ) :
    Machine (StateCounters δ γ) (CountersAction δ) where
  init s := s = .start counter descriptors
  step := StateCounters.step counter

/-- When the constructor has ended and no call is in flight, the counter of each state is the number
of descriptors in that state. -/
def CountersAgree (descriptors : List δ) (s : StateCounters δ γ) : Prop :=
  s.constructor = .loop [] → (∀ c ∈ s.calls, c.inFlight = false) →
    ∀ state, counter.get (s.counters state) =
      descriptors.countP fun d => (s.descriptor d).state = state

/-- The step does not deliver a stale event: the counters are only notified of a swap that came
after the constructor had read the state of the descriptor. -/
def DeliversFresh (s : StateCounters δ γ) : CountersAction δ → Prop
  | .call i => ∀ c ∈ s.calls[i]?, c.notification = .none → s.notificationOf c ≠ .none →
    c.afterRead = true
  | _ => True

instance (s : StateCounters δ γ) (a : CountersAction δ) : Decidable (DeliversFresh s a) := by
  cases a <;> unfold DeliversFresh <;> infer_instance

end Machine

/-! ### What is due -/

section Due

variable {δ γ : Type} {counter : GaugeCounter γ} {descriptors : List δ} {s t : StateCounters δ γ}

/-- What the call of a swap is still to add to a counter: its event, if it is sure to be delivered.
Since the constructor reads the state after it has added the listener, the events of all swaps that
come after the read are. -/
def WriteCall.due (state : ApplicationState) (c : WriteCall δ) : ℤ :=
  match c.notification, c.write.event with
  | .none, some (old, new) => if c.afterRead then unit state new - unit state old else 0
  | notification, _ => notification.due state

/-- What the constructor is still to add for the descriptor whose state it has read. -/
def ConstructorPoint.due (state : ApplicationState) : ConstructorPoint δ → ℤ
  | .reading _ _ (.read counted) => unit state counted
  | .reading _ _ (.returned counted) => unit state counted
  | _ => 0

/-- The descriptors whose state the constructor is still to read. -/
def ConstructorPoint.unread : ConstructorPoint δ → List δ
  | .loop rest => rest
  | .reading d rest .entry => d :: rest
  | .reading d rest .locked => d :: rest
  | .reading _ rest _ => rest

/-- The invariant: a counter has the descriptors in its state among those that were read, and what
stale events have added, less what is still to come. -/
structure CountersAccounted (counter : GaugeCounter γ) (descriptors : List δ)
    (s : StateCounters δ γ) : Prop where
  counters : ∀ state, counter.get (s.counters state) + (s.calls.map fun c => c.due state).sum +
    s.constructor.due state =
      (∑ d ∈ s.read, unit state (s.descriptor d).state) + s.stale state
  afterRead : ∀ c ∈ s.calls, c.afterRead = true → c.descriptor ∈ s.read
  event : ∀ c ∈ s.calls, c.write.event ≠ none → c.notification = .none
  listening : ∀ d ∈ s.read, s.listening d = true
  reading : ∀ d rest p, s.constructor = .reading d rest p → s.listening d = true
  nodup : s.constructor.unread.Nodup
  unread : ∀ d, d ∈ descriptors ↔ d ∈ s.read ∨ d ∈ s.constructor.unread
  notMem_read : ∀ d ∈ s.constructor.unread, d ∉ s.read

theorem sum_set {calls : List (WriteCall δ)} {i : ℕ} {c : WriteCall δ} (hc : calls[i]? = some c)
    (c' : WriteCall δ) (state : ApplicationState) :
    ((calls.set i c').map fun c => c.due state).sum =
      (calls.map fun c => c.due state).sum - c.due state + c'.due state := by
  obtain ⟨hi, hget⟩ := List.getElem?_eq_some_iff.mp hc
  rw [List.map_set, List.sum_set']
  simp only [List.length_map, hi, dif_pos, List.getElem_map, hget]
  omega

/-- A call that has returned has nothing to add. -/
theorem WriteCall.due_eq_zero {c : WriteCall δ} (h : c.inFlight = false)
    (state : ApplicationState) : c.due state = 0 := by
  simp only [WriteCall.inFlight, Bool.or_eq_false_iff, decide_eq_false_iff_not, not_not] at h
  simp [WriteCall.due, h.1, Write.event_eq_none h.2, Notification.due]

theorem sum_unit (state : ApplicationState) (f : δ → ApplicationState) (l : List δ) :
    (l.map fun d => unit state (f d)).sum = l.countP fun d => f d = state := by
  induction l with
  | nil => rfl
  | cons d l ih =>
    rw [List.map_cons, List.sum_cons, ih, List.countP_cons, unit]
    by_cases hd : f d = state
    · simp only [hd, if_true, decide_true]
      omega
    · simp only [hd, if_false, decide_false, Bool.false_eq_true]
      omega

/-- One of the counters is incremented. -/
theorem get_update_increment (hcounter : counter.Counts) (counters : ApplicationState → γ)
    (counted state : ApplicationState) :
    counter.get (Function.update counters counted (counter.increment (counters counted)) state) =
      counter.get (counters state) + unit state counted := by
  by_cases heq : counted = state
  · subst heq
    simp [unit, hcounter.increment]
  · simp [unit, heq, Function.update_of_ne (Ne.symm heq)]

/-- One of the counters is decremented. -/
theorem get_update_decrement (hcounter : counter.Counts) (counters : ApplicationState → γ)
    (counted state : ApplicationState) :
    counter.get (Function.update counters counted (counter.decrement (counters counted)) state) =
      counter.get (counters state) - unit state counted := by
  by_cases heq : counted = state
  · subst heq
    simp [unit, hcounter.decrement]
  · simp [unit, heq, Function.update_of_ne (Ne.symm heq)]

/-! ### The invariant -/

/-- An event that is fired becomes due as a notification; if it is stale, it was not due before. -/
theorem due_notificationOf {c : WriteCall δ} (hnone : c.notification = .none)
    (hlistening : c.afterRead = true → s.listening c.descriptor = true) (state : ApplicationState) :
    (s.notificationOf c).due state =
      c.due state + if c.afterRead then 0 else (s.notificationOf c).due state := by
  cases hevent : c.write.event with
  | none => simp [StateCounters.notificationOf, WriteCall.due, hnone, hevent, Notification.due]
  | some e =>
    obtain ⟨old, new⟩ := e
    cases hafter : c.afterRead with
    | false => simp [WriteCall.due, hnone, hevent, hafter]
    | true =>
      have hl := hlistening hafter
      by_cases heq : old = new <;>
        simp [StateCounters.notificationOf, WriteCall.due, hnone, hevent, hafter, hl, heq,
          Notification.due]

theorem CountersAccounted.begin (h : CountersAccounted counter descriptors s) {d : δ} {w : Write}
    (hw : w.atEntry = true) :
    CountersAccounted counter descriptors
      { s with calls := s.calls ++ [⟨d, w, .none, false⟩] } where
  counters state := by
    have hevent : w.event = none := by
      cases w with
      | set new p => obtain rfl := of_decide_eq_true hw; rfl
      | compareAndSet expect new p => obtain rfl := of_decide_eq_true hw; rfl
    have hdue : WriteCall.due state (⟨d, w, .none, false⟩ : WriteCall δ) = 0 := by
      simp [WriteCall.due, hevent, Notification.due]
    simpa [hdue] using h.counters state
  afterRead := by
    intro c hc hafter
    obtain hc | hc := List.mem_append.mp hc
    · exact h.afterRead c hc hafter
    · rw [List.mem_singleton.mp hc] at hafter
      cases hafter
  event := by
    intro c hc hevent
    obtain hc | hc := List.mem_append.mp hc
    · exact h.event c hc hevent
    · rw [List.mem_singleton.mp hc]
  listening := h.listening
  reading := h.reading
  nodup := h.nodup
  unread := h.unread
  notMem_read := h.notMem_read

/-- A step of a call, which changes the counters, the descriptors and the stale events, and the call
itself. -/
theorem CountersAccounted.set (h : CountersAccounted counter descriptors s) {i : ℕ}
    {c c' : WriteCall δ} (hc : s.calls[i]? = some c) {counters : ApplicationState → γ}
    {stale : ApplicationState → ℤ}
    {descriptor : δ → ApplicationDescriptor (Option ℕ) Unit}
    (hcounters : ∀ state, counter.get (counters state) + c'.due state +
        (∑ d ∈ s.read, unit state (s.descriptor d).state) + s.stale state =
      counter.get (s.counters state) + c.due state +
        (∑ d ∈ s.read, unit state (descriptor d).state) + stale state)
    (hafter : c'.afterRead = true → c'.descriptor ∈ s.read)
    (hevent : c'.write.event ≠ none → c'.notification = .none) :
    CountersAccounted counter descriptors { s with
      counters := counters
      descriptor := descriptor
      calls := s.calls.set i c'
      stale := stale } where
  counters state := by
    have hsum := h.counters state
    have hnew := hcounters state
    show counter.get (counters state) + ((s.calls.set i c').map fun c => c.due state).sum +
      s.constructor.due state = (∑ d ∈ s.read, unit state (descriptor d).state) + stale state
    rw [sum_set hc]
    omega
  afterRead := by
    intro x hx
    obtain hx | rfl := List.mem_or_eq_of_mem_set hx
    · exact h.afterRead x hx
    · exact hafter
  event := by
    intro x hx
    obtain hx | rfl := List.mem_or_eq_of_mem_set hx
    · exact h.event x hx
    · exact hevent
  listening := h.listening
  reading := h.reading
  nodup := h.nodup
  unread := h.unread
  notMem_read := h.notMem_read

/-- Reading the state does not change it. -/
theorem state_of_getApplicationState {i : Option ℕ} {d d' : ApplicationDescriptor (Option ℕ) Unit}
    {p p' : GetPoint} (h : getApplicationState i d p = some (d', p')) : d'.state = d.state := by
  cases p with
  | entry =>
    obtain ⟨d₁, hd, h⟩ := Option.map_eq_some_iff.mp h
    obtain ⟨rfl, rfl⟩ := Prod.mk.inj h
    obtain ⟨-, hd⟩ := Option.ite_none_right_eq_some.mp hd
    obtain rfl := Option.some.inj hd
    rfl
  | locked | read state =>
    obtain ⟨rfl, rfl⟩ := Prod.mk.inj (Option.some.inj h)
    rfl
  | returned state => cases h

/-- A step of the constructor that leaves the counters and the states as they are. `p'` is the next
control point. -/
theorem CountersAccounted.construct (h : CountersAccounted counter descriptors s)
    {descriptor : δ → ApplicationDescriptor (Option ℕ) Unit} {listening : δ → Bool}
    {point : ConstructorPoint δ}
    (hdescriptor : ∀ d, (descriptor d).state = (s.descriptor d).state)
    (hlistening : ∀ d, s.listening d = true → listening d = true)
    (hreading : ∀ d rest p, point = .reading d rest p → listening d = true)
    (hunread : point.unread = s.constructor.unread)
    (hdue : ∀ state, point.due state = s.constructor.due state) :
    CountersAccounted counter descriptors { s with
      descriptor := descriptor
      listening := listening
      constructor := point } where
  counters state := by
    have hsum := h.counters state
    show counter.get (s.counters state) + (s.calls.map fun c => c.due state).sum +
      point.due state =
      (∑ d ∈ s.read, unit state (descriptor d).state) + s.stale state
    rw [hdue, hsum]
    simp only [hdescriptor]
  afterRead := h.afterRead
  event := h.event
  listening d hd := hlistening d (h.listening d hd)
  reading := hreading
  nodup := hunread ▸ h.nodup
  unread d := by
    rw [hunread]
    exact h.unread d
  notMem_read := by
    rw [hunread]
    exact h.notMem_read

variable [DecidableEq δ]

/-- A sum over the descriptors that were read, when the state of one of them changes. -/
theorem sum_update (read : Finset δ) (descriptor : δ → ApplicationDescriptor (Option ℕ) Unit)
    (d : δ) (d' : ApplicationDescriptor (Option ℕ) Unit) (state : ApplicationState) :
    ∑ e ∈ read, unit state (Function.update descriptor d d' e).state =
      (∑ e ∈ read, unit state (descriptor e).state) +
        if d ∈ read then unit state d'.state - unit state (descriptor d).state else 0 := by
  split
  · rename_i hd
    rw [← Finset.add_sum_erase _ _ hd, ← Finset.add_sum_erase _ _ hd, Function.update_self]
    have herase : ∀ e ∈ read.erase d, unit state (Function.update descriptor d d' e).state =
        unit state (descriptor e).state := by
      intro e he
      rw [Function.update_of_ne (Finset.ne_of_mem_erase he)]
    rw [Finset.sum_congr rfl herase]
    omega
  · rename_i hd
    have hsame : ∀ e ∈ read, unit state (Function.update descriptor d d' e).state =
        unit state (descriptor e).state := by
      intro e he
      rw [Function.update_of_ne]
      rintro rfl
      exact hd he
    rw [Finset.sum_congr rfl hsame, add_zero]

theorem CountersAccounted.nextCall (hcounter : counter.Counts)
    (h : CountersAccounted counter descriptors s) {i : ℕ} {c : WriteCall δ}
    (hc : s.calls[i]? = some c) (hs : s.nextCall counter i c = some t) :
    CountersAccounted counter descriptors t := by
  have hmem : c ∈ s.calls := List.mem_of_getElem? hc
  cases hnotification : c.notification with
  | decrement old new =>
    simp only [StateCounters.nextCall, hnotification, Option.some.injEq] at hs
    subst hs
    refine h.set hc (fun state => ?_) (h.afterRead c hmem) fun hevent => ?_
    · have hget := get_update_decrement hcounter s.counters old state
      simp only [WriteCall.due, hnotification, Notification.due] at hget ⊢
      omega
    · rw [h.event c hmem hevent] at hnotification
      cases hnotification
  | increment new =>
    simp only [StateCounters.nextCall, hnotification, Option.some.injEq] at hs
    subst hs
    refine h.set hc (fun state => ?_) (h.afterRead c hmem) fun _ => rfl
    have hevent : c.write.event = none := by
      by_contra hne
      rw [h.event c hmem hne] at hnotification
      cases hnotification
    have hget := get_update_increment hcounter s.counters new state
    simp only [WriteCall.due, hnotification, hevent, Notification.due] at hget ⊢
    omega
  | none =>
    simp only [StateCounters.nextCall, hnotification] at hs
    obtain ⟨⟨d', w⟩, hnext, rfl⟩ := Option.map_eq_some_iff.mp hs
    have hfire := due_notificationOf (s := s) hnotification
      fun hafter => h.listening _ (h.afterRead c hmem hafter)
    have hnotificationOf : c.write.event = none → s.notificationOf c = .none := fun hevent => by
      simp only [StateCounters.notificationOf, hevent]
    obtain ⟨new, hevent, hswap, hstate⟩ | ⟨hevent', hstate⟩ := Write.next_cases hnext
    · -- The swap. Its event is due if the constructor has read the state that was swapped.
      refine h.set hc (fun state => ?_) (fun hafter => ?_) fun _ => hnotificationOf hevent
      · have hsum := sum_update s.read s.descriptor c.descriptor d' state
        have hfired := hfire state
        rw [hnotificationOf hevent, Notification.due] at hfired
        rw [hsum, hnotificationOf hevent]
        simp only [WriteCall.due, hnotification, hevent, hswap, hstate, Notification.due,
          Option.isSome_some, Bool.true_and, decide_eq_true_eq, ite_self]
        omega
      · simp only [Bool.and_eq_true, decide_eq_true_eq] at hafter
        exact hafter.2
    · refine h.set hc (fun state => ?_) (fun hafter => ?_) fun hne => absurd hevent' hne
      · have hsum := sum_update s.read s.descriptor c.descriptor d' state
        have hfired := hfire state
        rw [hsum, hstate, sub_self, ite_self]
        have hdue : WriteCall.due state
            { c with
              write := w
              notification := s.notificationOf c
              afterRead := w.event.isSome && decide (c.descriptor ∈ s.read) } =
            (s.notificationOf c).due state := by
          cases s.notificationOf c <;> simp [WriteCall.due, hevent', Notification.due]
        rw [hdue]
        omega
      · simp [hevent'] at hafter

/-- The constructor reads the state of a descriptor. -/
theorem CountersAccounted.readState (h : CountersAccounted counter descriptors s) {d : δ}
    {rest : List δ} {d' : ApplicationDescriptor (Option ℕ) Unit}
    (hpoint : s.constructor = .reading d rest .locked)
    (hstate : d'.state = (s.descriptor d).state) :
    CountersAccounted counter descriptors { s with
      descriptor := Function.update s.descriptor d d'
      constructor := .reading d rest (.read (s.descriptor d).state)
      read := insert d s.read } := by
  have hnotMem : d ∉ s.read := h.notMem_read d (by rw [hpoint]; exact List.mem_cons_self ..)
  have hnodup : (d :: rest).Nodup := by
    have hnodup := h.nodup
    rw [hpoint] at hnodup
    exact hnodup
  refine ⟨fun state => ?_, fun c hc hafter => ?_, h.event, fun e he => ?_, ?_, ?_, fun e => ?_, ?_⟩
  · have hsum := h.counters state
    have hupdate := sum_update s.read s.descriptor d d' state
    rw [hpoint] at hsum
    simp only [hnotMem, if_false, add_zero] at hupdate
    show counter.get (s.counters state) + (s.calls.map fun c => c.due state).sum +
      unit state (s.descriptor d).state =
        (∑ e ∈ insert d s.read, unit state (Function.update s.descriptor d d' e).state) +
          s.stale state
    rw [Finset.sum_insert hnotMem, hupdate, Function.update_self, hstate]
    simp only [ConstructorPoint.due] at hsum ⊢
    omega
  · exact Finset.mem_insert_of_mem (h.afterRead c hc hafter)
  · obtain rfl | he := Finset.mem_insert.mp he
    · exact h.reading _ _ _ hpoint
    · exact h.listening e he
  · rintro e rest' p hp
    cases hp
    exact h.reading _ _ _ hpoint
  · exact (List.nodup_cons.mp hnodup).2
  · have hunread := h.unread e
    rw [hpoint] at hunread
    simp only [ConstructorPoint.unread, List.mem_cons] at hunread ⊢
    rw [hunread, Finset.mem_insert]
    tauto
  · intro e he hmem
    obtain rfl | hmem := Finset.mem_insert.mp hmem
    · exact (List.nodup_cons.mp hnodup).1 he
    · refine h.notMem_read e ?_ hmem
      rw [hpoint]
      exact List.mem_cons_of_mem _ he

/-- The constructor adds the counters as a listener of a descriptor. -/
theorem CountersAccounted.listen (h : CountersAccounted counter descriptors s) {d : δ}
    {rest : List δ} (hpoint : s.constructor = .loop (d :: rest)) :
    CountersAccounted counter descriptors { s with
      listening := Function.update s.listening d true
      constructor := .reading d rest .entry } := by
  refine h.construct (fun _ => rfl) (fun e he => ?_) ?_ ?_ fun _ => ?_
  · by_cases hed : e = d
    · subst hed
      exact Function.update_self ..
    · rw [Function.update_of_ne hed, he]
  · rintro e rest' p hp
    cases hp
    exact Function.update_self ..
  · rw [hpoint]
    rfl
  · rw [hpoint]
    rfl

omit [DecidableEq δ] in
/-- The constructor increments the counter of the state that it has read. -/
theorem CountersAccounted.incrementState (hcounter : counter.Counts)
    (h : CountersAccounted counter descriptors s) {d : δ} {rest : List δ}
    {state : ApplicationState} (hpoint : s.constructor = .reading d rest (.returned state)) :
    CountersAccounted counter descriptors { s with
      counters := Function.update s.counters state (counter.increment (s.counters state))
      constructor := .loop rest } := by
  refine ⟨fun state' => ?_, h.afterRead, h.event, h.listening, nofun, ?_, fun e => ?_, ?_⟩
  · have hsum := h.counters state'
    rw [hpoint] at hsum
    simp only [ConstructorPoint.due, get_update_increment hcounter] at hsum ⊢
    omega
  · have hnodup := h.nodup
    rw [hpoint] at hnodup
    exact hnodup
  · have hunread := h.unread e
    rw [hpoint] at hunread
    exact hunread
  · have hnotMem := h.notMem_read
    rw [hpoint] at hnotMem
    exact hnotMem

theorem CountersAccounted.nextConstructor (hcounter : counter.Counts)
    (h : CountersAccounted counter descriptors s) (hs : s.nextConstructor counter = some t) :
    CountersAccounted counter descriptors t := by
  cases hpoint : s.constructor with
  | loop rest =>
    cases rest with
    | nil => simp [StateCounters.nextConstructor, hpoint] at hs
    | cons d rest =>
      simp only [StateCounters.nextConstructor, hpoint, Option.some.injEq] at hs
      subst hs
      exact h.listen hpoint
  | reading d rest p =>
    have hsame {p' : GetPoint} {d' : ApplicationDescriptor (Option ℕ) Unit}
        (hp : getApplicationState none (s.descriptor d) p = some (d', p')) (e : δ) :
        (Function.update s.descriptor d d' e).state = (s.descriptor e).state := by
      by_cases hed : e = d
      · subst hed
        rw [Function.update_self, state_of_getApplicationState hp]
      · rw [Function.update_of_ne hed]
    have hlistening (e : δ) (rest' : List δ) (q p' : GetPoint)
        (he : ConstructorPoint.reading d rest p' = .reading e rest' q) : s.listening e = true := by
      cases he
      exact h.reading _ _ _ hpoint
    cases p with
    | returned counted =>
      simp only [StateCounters.nextConstructor, hpoint, Option.some.injEq] at hs
      subst hs
      exact h.incrementState hcounter hpoint
    | entry =>
      simp only [StateCounters.nextConstructor, hpoint] at hs
      obtain ⟨⟨d', p'⟩, hp, rfl⟩ := Option.map_eq_some_iff.mp hs
      obtain ⟨d₁, hd, hp'⟩ := Option.map_eq_some_iff.mp hp
      obtain ⟨rfl, rfl⟩ := Prod.mk.inj hp'
      refine h.construct (hsame hp) (fun _ he => he) (fun e rest' q => hlistening e rest' q _) ?_
        fun _ => ?_ <;>
      · rw [hpoint]
        rfl
    | locked =>
      simp only [StateCounters.nextConstructor, hpoint] at hs
      obtain ⟨⟨d', p'⟩, hp, rfl⟩ := Option.map_eq_some_iff.mp hs
      obtain ⟨rfl, rfl⟩ := Prod.mk.inj (Option.some.inj hp)
      exact h.readState hpoint rfl
    | read state =>
      simp only [StateCounters.nextConstructor, hpoint] at hs
      obtain ⟨⟨d', p'⟩, hp, rfl⟩ := Option.map_eq_some_iff.mp hs
      obtain ⟨rfl, rfl⟩ := Prod.mk.inj (Option.some.inj hp)
      refine h.construct (hsame hp) (fun _ he => he) (fun e rest' q => hlistening e rest' q _) ?_
        fun _ => ?_ <;>
      · rw [hpoint]
        rfl

theorem CountersAccounted.step (hcounter : counter.Counts)
    (h : CountersAccounted counter descriptors s) {a : CountersAction δ}
    (hs : s.step counter a = some t) : CountersAccounted counter descriptors t := by
  cases a with
  | begin d w =>
    obtain ⟨hw, hs⟩ := Option.ite_none_right_eq_some.mp hs
    obtain rfl := Option.some.inj hs
    exact h.begin hw
  | call i =>
    obtain ⟨c, hc, hs⟩ := Option.bind_eq_some_iff.mp hs
    exact h.nextCall hcounter hc hs
  | construct => exact h.nextConstructor hcounter hs

theorem countersAccounted_of_reachable (hcounter : counter.Counts) (hd : descriptors.Nodup)
    (h : (stateCountersMachine counter descriptors).Reachable s) :
    CountersAccounted counter descriptors s := by
  refine h.invariant (fun s hs => ?_) fun _ _ _ _ hI _ hst =>
    hI.step hcounter hst
  subst hs
  refine ⟨?_, ?_, ?_, ?_, nofun, hd, ?_, ?_⟩ <;>
    simp [StateCounters.start, ConstructorPoint.due, ConstructorPoint.unread, hcounter.new]

/-- **What the counters are** when nothing is going on: the number of descriptors in each state, and
what stale events have added. -/
theorem CountersAccounted.counters_eq (h : CountersAccounted counter descriptors s)
    (hd : descriptors.Nodup) (hend : s.constructor = .loop [])
    (hcalls : ∀ c ∈ s.calls, c.inFlight = false) (state : ApplicationState) :
    counter.get (s.counters state) =
      (descriptors.countP fun d => (s.descriptor d).state = state) + s.stale state := by
  have hcounters := h.counters state
  have hdue : (s.calls.map fun c => c.due state).sum = 0 := by
    refine List.sum_eq_zero fun x hx => ?_
    obtain ⟨c, hc, rfl⟩ := List.mem_map.mp hx
    exact c.due_eq_zero (hcalls c hc) state
  have hread : s.read = descriptors.toFinset := by
    ext d
    have hunread := h.unread d
    rw [hend] at hunread
    simp only [ConstructorPoint.unread, List.not_mem_nil, or_false] at hunread
    rw [List.mem_toFinset, hunread]
  have hsum : ∑ d ∈ s.read, unit state (s.descriptor d).state =
      descriptors.countP fun d => (s.descriptor d).state = state := by
    rw [hread, List.sum_toFinset _ hd, sum_unit]
  have hended : (ConstructorPoint.loop ([] : List δ)).due state = 0 := rfl
  rw [hdue, hsum, hend, hended] at hcounters
  omega

/-- In the states of all runs, the counters agree with the descriptors exactly if what stale events
have added comes to nothing. -/
theorem countersAgree_iff_stale (hcounter : counter.Counts) (hd : descriptors.Nodup)
    (h : (stateCountersMachine counter descriptors).Reachable s) :
    CountersAgree counter descriptors s ↔
      (s.constructor = .loop [] → (∀ c ∈ s.calls, c.inFlight = false) →
        ∀ state, s.stale state = 0) := by
  have haccounted : CountersAccounted counter descriptors s :=
    countersAccounted_of_reachable hcounter hd h
  constructor
  · intro hagree hend hcalls state
    have hcounters := haccounted.counters_eq hd hend hcalls state
    rw [hagree hend hcalls state] at hcounters
    omega
  · intro hstale hend hcalls state
    rw [haccounted.counters_eq hd hend hcalls, hstale hend hcalls, add_zero]

/-- A step that delivers no stale event adds nothing to the stale events. -/
theorem stale_of_step {a : CountersAction δ} (ha : DeliversFresh s a)
    (hs : s.step counter a = some t) : t.stale = s.stale := by
  cases a with
  | begin d w =>
    obtain ⟨-, hs⟩ := Option.ite_none_right_eq_some.mp hs
    obtain rfl := Option.some.inj hs
    rfl
  | call i =>
    obtain ⟨c, hc, hs⟩ := Option.bind_eq_some_iff.mp hs
    cases hnotification : c.notification with
    | decrement old new =>
      simp only [StateCounters.nextCall, hnotification, Option.some.injEq] at hs
      rw [← hs]
    | increment new =>
      simp only [StateCounters.nextCall, hnotification, Option.some.injEq] at hs
      rw [← hs]
    | none =>
      simp only [StateCounters.nextCall, hnotification] at hs
      obtain ⟨⟨d', w⟩, -, rfl⟩ := Option.map_eq_some_iff.mp hs
      funext state
      show s.stale state + (if c.afterRead then 0 else (s.notificationOf c).due state) =
        s.stale state
      by_cases hnone : s.notificationOf c = .none
      · simp [hnone, Notification.due]
      · simp [ha c hc hnotification hnone]
  | construct =>
    simp only [StateCounters.step, StateCounters.nextConstructor] at hs
    split at hs
    · cases hs
    · rw [← Option.some.inj hs]
    · rw [← Option.some.inj hs]
    · obtain ⟨r, -, rfl⟩ := Option.map_eq_some_iff.mp hs
      rfl

/-- **The counters agree with the descriptors**, in every state of every run that delivers no stale
event. -/
theorem countersAgree_of_reachableOf (hcounter : counter.Counts) (hd : descriptors.Nodup)
    (h : (stateCountersMachine counter descriptors).ReachableOf DeliversFresh s) :
    CountersAgree counter descriptors s := by
  have hstale : s.stale = fun _ => 0 := by
    refine h.invariant (I := fun s => s.stale = fun _ => 0) (fun s hs => ?_)
      fun s a t _ hI ha hst => ?_
    · rw [hs]
      rfl
    · rw [stale_of_step ha hst, hI]
  exact (countersAgree_iff_stale hcounter hd h.reachable).mpr fun _ _ state => congrFun hstale state

end Due

/-! ### Two runs -/

/-- A descriptor comes to be running while the counters are constructed, after its state was
read. -/
def swapAfterRead : List (CountersAction Bool) :=
  [.construct, .construct, .construct, .construct, .begin false (.set .running .entry), .construct,
    .call 0, .call 0, .construct, .call 0, .call 0, .construct, .construct, .call 0, .construct,
    .call 0, .construct]

/-- A counter that is an integer. -/
def integerCounter : GaugeCounter ℤ := ⟨0, (· + 1), (· - 1), id⟩

theorem counts_integerCounter : integerCounter.Counts := ⟨rfl, fun _ => rfl, fun _ => rfl⟩

theorem countersAgree_swapAfterRead :
    ∃ s, (stateCountersMachine integerCounter [false, true]).ReachableOf DeliversFresh s ∧
      CountersAgree integerCounter [false, true] s ∧ s.constructor = .loop [] ∧
        s.counters .running = 1 := by
  obtain ⟨s, hrun, hend⟩ :=
    (stateCountersMachine integerCounter [false, true]).exists_runOf_of_execOf
      DeliversFresh (.start integerCounter [false, true]) swapAfterRead
      (fun s => s.constructor = .loop [] && s.counters .running = 1) rfl
  simp only [Bool.and_eq_true, decide_eq_true_eq] at hend
  have hreachable :
      (stateCountersMachine integerCounter [false, true]).ReachableOf DeliversFresh s :=
    ⟨_, rfl, hrun⟩
  exact ⟨s, hreachable,
    countersAgree_of_reachableOf counts_integerCounter (by decide) hreachable, hend⟩

/-- The state is swapped before it is read, and the event is fired after the listener was added. -/
def swapBeforeRead : List (CountersAction Unit) :=
  [.begin () (.set .running .entry), .call 0, .call 0, .construct, .call 0, .call 0, .call 0,
    .call 0, .construct, .construct, .construct, .construct]

/-- Of one descriptor, two are counted as running. -/
theorem not_countersAgree_swapBeforeRead :
    ¬ ∀ s, (stateCountersMachine integerCounter [()]).Reachable s →
      CountersAgree integerCounter [()] s := by
  intro h
  obtain ⟨s, hrun, hend⟩ := (stateCountersMachine integerCounter [()]).exists_run_of_exec
    (.start integerCounter [()]) swapBeforeRead
    (fun s => s.constructor = .loop [] && (s.calls.all fun c => !c.inFlight) &&
      s.counters .running = 2) rfl
  simp only [Bool.and_eq_true, decide_eq_true_eq, List.all_eq_true, Bool.not_eq_true'] at hend
  have hcounters : s.counters .running = _ := h s ⟨_, rfl, hrun⟩ hend.1.1 hend.1.2 .running
  have hle := List.countP_le_length (p := fun d => (s.descriptor d).state = .running) (l := [()])
  rw [List.length_singleton] at hle
  omega

end Shabdiz
