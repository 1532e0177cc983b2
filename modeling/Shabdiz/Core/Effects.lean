import Shabdiz.Core.ApplicationNetwork

/-!
# What one step on a descriptor can do

Eight operations with some sixty control points act on a descriptor, but a step of any of them
does one of a few things to it. `View` is what the properties of this development see of a call:
whether it holds the monitor, and how far it has come. `Effect` lists the steps between views with
what each does to the descriptor, and `Call.effect_of_next` says that the list is complete.

Invariants of the machine are proved about views and effects. Only this module unfolds the control
points.

## Main definitions

* `Stage`, `View` — a call as the properties see it
* `Effect` — what a step does to the descriptor and to the view

## Main results

* `Call.effect_of_next` — every step of a call is one of the listed effects
* `descriptor_invariant` — the invariant rule, for assertions about views
-/

namespace Shabdiz

open ApplicationDescriptor

variable {ι ρ η : Type}

/-- How far a call has come. -/
inductive Stage (ρ : Type) where
  /-- Nothing is decided yet. -/
  | idle
  /-- An awaiter that found the state in none of `states` and has not added its listener. -/
  | checked (states : List ApplicationState)
  /-- An awaiter with its listener added, until it is woken. -/
  | listening (states : List ApplicationState)
  /-- A deployment whose instance is started and whose reference is not stored. -/
  | created (reference : ρ)
  /-- The call is going to write `new`, if the state is still the one it expects, if it expects
  one. -/
  | ready (expect : Option ApplicationState) (new : ApplicationState)
  /-- The state is swapped and the event is not fired. -/
  | pending (old new : ApplicationState)
  | ended
deriving DecidableEq

/-- A call as seen from outside: whether it is inside the monitor, and its stage. -/
structure View (ρ : Type) where
  inside : Bool
  stage : Stage ρ
deriving DecidableEq

/-! ### The views of the control points -/

/-- The call is inside the monitor. -/
def GetPoint.inside : GetPoint → Bool
  | entry => false
  | locked => true
  | read _ => true
  | returned _ => false

/-- The call is inside the monitor. -/
def SetPoint.inside : SetPoint → Bool
  | entry => false
  | locked => true
  | swapped _ => true
  | fired => true
  | returned => false

/-- How far a call of the setter has come with its write. -/
def SetPoint.stage (new : ApplicationState) : SetPoint → Stage ρ
  | entry => .ready none new
  | locked => .ready none new
  | swapped old => .pending old new
  | fired => .ended
  | returned => .ended

/-- How far a compare-and-set has come with its write. -/
def CasPoint.stage (expect new : ApplicationState) : CasPoint → Stage ρ
  | entry => .ready (some expect) new
  | swapped => .pending expect new
  | returned _ => .ended

/-- What an await shows of itself. -/
def AwaitPoint.view (states : List ApplicationState) : AwaitPoint → View ρ
  | entry => ⟨false, .idle⟩
  | locked => ⟨true, .idle⟩
  | checked => ⟨true, .checked states⟩
  | added => ⟨true, .listening states⟩
  | satisfied => ⟨true, .ended⟩
  | waiting => ⟨false, .listening states⟩
  | removing _ => ⟨false, .ended⟩
  | returned => ⟨false, .ended⟩
  | interrupted => ⟨false, .ended⟩

/-- What a deployment shows of itself: a call of the manager, then a call of the setter. -/
def DeployPoint.view : DeployPoint ρ → View ρ
  | deploying => ⟨false, .idle⟩
  | created reference => ⟨false, .created reference⟩
  | updating p => ⟨p.inside, p.stage .deployed⟩
  | thrown _ => ⟨false, .ended⟩

/-- What a kill shows of itself: a call of the manager, then a call of the setter. -/
def KillPoint.view : KillPoint → View ρ
  | killing => ⟨false, .idle⟩
  | updating p => ⟨p.inside, p.stage .killed⟩
  | thrown _ => ⟨false, .ended⟩

/-- What a status scan shows of itself: a call of the getter, then a compare-and-set. -/
def StatusScanPoint.view : StatusScanPoint → View ρ
  | reading p => ⟨p.inside, .idle⟩
  | updating old new p => ⟨false, p.stage old new⟩
  | thrown _ => ⟨false, .ended⟩

/-- What an auto-deploy scan shows of itself: a call of the getter, then perhaps a deployment. -/
def AutoDeployScanPoint.view : AutoDeployScanPoint ρ → View ρ
  | reading p => ⟨p.inside, .idle⟩
  | deploying p => p.view
  | skipped => ⟨false, .ended⟩

/-- What an auto-kill scan shows of itself: a call of the getter, then perhaps a kill. -/
def AutoKillScanPoint.view : AutoKillScanPoint → View ρ
  | reading p => ⟨p.inside, .idle⟩
  | killing p => p.view
  | skipped => ⟨false, .ended⟩

/-- What a call shows of itself: whether it is inside the monitor, and its stage. -/
def Call.view : Call ρ → View ρ
  | awaitAnyOfStates states p => p.view states
  | setApplicationState new p => ⟨p.inside, p.stage new⟩
  | compareAndSetApplicationState expect new p => ⟨false, p.stage expect new⟩
  | deploy p => p.view
  | kill p => p.view
  | statusScan p => p.view
  | autoDeployScan p => p.view
  | autoKillScan p => p.view

/-- The view of a thread. A call that has not begun looks as it does when it begins. -/
def Thread.view : Thread Operation (Call ρ) → View ρ
  | ready o => (o.start : Call ρ).view
  | running k => k.view

@[simp] theorem Thread.view_ready (o : Operation) :
    (Thread.ready o : Thread Operation (Call ρ)).view = (o.start : Call ρ).view := rfl

@[simp] theorem Thread.view_running (k : Call ρ) :
    (Thread.running k : Thread Operation (Call ρ)).view = k.view := rfl

/-! ### Effects -/

/-- What a step of call `i` does to the descriptor and to the call's view. -/
inductive Effect [DecidableEq ι] [DecidableEq ρ] (m : AbstractApplicationManager ρ η) (i : ι)
    (answer : Answer η) (d : ApplicationDescriptor ι ρ) :
    View ρ → ApplicationDescriptor ι ρ → View ρ → Prop where
  | enter {s} (h : d.monitor = none) : Effect m i answer d ⟨false, s⟩ (d.hold i) ⟨true, s⟩
  | leave {s} : Effect m i answer d ⟨true, s⟩ d.leave ⟨false, s⟩
  /-- The call begins, or a scan decides to act. -/
  | stay {v} : Effect m i answer d v d v
  | read : Effect m i answer d ⟨true, .idle⟩ (d.record (.read i d.state)) ⟨true, .idle⟩
  | check {states} (h : d.isInAnyOfStates states = false) :
      Effect m i answer d ⟨true, .idle⟩ (d.record (.checked i)) ⟨true, .checked states⟩
  | satisfy {states} (h : d.isInAnyOfStates states = true) :
      Effect m i answer d ⟨true, .idle⟩ (d.record (.checked i)) ⟨true, .ended⟩
  | listen {states} :
      Effect m i answer d ⟨true, .checked states⟩ (d.addStateChangeListener ⟨i, states⟩)
        ⟨true, .listening states⟩
  | wake {states} : Effect m i answer d ⟨false, .listening states⟩ d ⟨false, .ended⟩
  | unlisten {states} :
      Effect m i answer d ⟨false, .ended⟩ (d.removeStateChangeListener ⟨i, states⟩) ⟨false, .ended⟩
  | probe {a host old new} (ha : answer = .probe a host)
      (h : m.probeState d.applicationReference a host = .ok new) :
      Effect m i answer d ⟨false, .idle⟩
        (d.record (.probed i (m.attemptApplicationCall d.applicationReference a).isOk new))
        ⟨false, .ready (some old) new⟩
  | create {a reference} (ha : answer = .deploy a) (h : m.deploy a = .ok reference) :
      Effect m i answer d ⟨false, .idle⟩ (d.create i reference) ⟨false, .created reference⟩
  | store {reference} :
      Effect m i answer d ⟨false, .created reference⟩ (d.setApplicationReference i reference)
        ⟨false, .ready none .deployed⟩
  | kill {a ends} (ha : answer = .kill a ends) (h : m.kill d.applicationReference a = .ok ()) :
      Effect m i answer d ⟨false, .idle⟩ (d.endInstance.record (.killed i))
        ⟨false, .ready none .killed⟩
  /-- The call throws, or a scan decides not to act. -/
  | fail : Effect m i answer d ⟨false, .idle⟩ d ⟨false, .ended⟩
  /-- `manager.kill` throws after it has ended the instance. -/
  | failEnding : Effect m i answer d ⟨false, .idle⟩ d.endInstance ⟨false, .ended⟩
  | swap {new} :
      Effect m i answer d ⟨true, .ready none new⟩ (d.swap i new) ⟨true, .pending d.state new⟩
  | compareAndSwap {new} :
      Effect m i answer d ⟨false, .ready (some d.state) new⟩ (d.swap i new)
        ⟨false, .pending d.state new⟩
  /-- `compareAndSet` finds another value than it expects. -/
  | skip {old new} (h : d.state ≠ old) :
      Effect m i answer d ⟨false, .ready (some old) new⟩ d ⟨false, .ended⟩
  | fire {b old new} :
      Effect m i answer d ⟨b, .pending old new⟩ (d.firePropertyChange i old new) ⟨b, .ended⟩

/-- A step records at most one event, its own. -/
theorem Effect.log_eq [DecidableEq ι] [DecidableEq ρ] {m : AbstractApplicationManager ρ η} {i : ι}
    {answer : Answer η} {d d' : ApplicationDescriptor ι ρ} {v v' : View ρ}
    (h : Effect m i answer d v d' v') :
    d'.log = d.log ∨ ∃ e : Event ι ρ, e.owner = i ∧ d'.log = d.log ++ [e] := by
  cases h <;> first | exact Or.inl rfl | exact Or.inr ⟨_, rfl, rfl⟩

/-- A step swaps the state, fires the event of a swap, or has nothing to do with either. -/
theorem Effect.swap_or_fire_or_quiet [DecidableEq ι] [DecidableEq ρ]
    {m : AbstractApplicationManager ρ η} {i : ι}
    {answer : Answer η} {d d' : ApplicationDescriptor ι ρ} {v v' : View ρ}
    (h : Effect m i answer d v d' v') :
    (∃ b expect new, v = ⟨b, .ready expect new⟩ ∧ d' = d.swap i new ∧
      v' = ⟨b, .pending d.state new⟩) ∨
    (∃ b old new, v = ⟨b, .pending old new⟩ ∧ d' = d.firePropertyChange i old new ∧
      v' = ⟨b, .ended⟩) ∨
    (d'.state = d.state ∧ d'.countedDown = d.countedDown ∧
      (d'.log = d.log ∨
        ∃ e : Event ι ρ, e.owner = i ∧ e.quiet = true ∧ d'.log = d.log ++ [e])) := by
  cases h with
  | swap | compareAndSwap => exact Or.inl ⟨_, _, _, rfl, rfl, rfl⟩
  | fire => exact Or.inr (Or.inl ⟨_, _, _, rfl, rfl, rfl⟩)
  | _ =>
    refine Or.inr (Or.inr ⟨rfl, rfl, ?_⟩)
    first | exact Or.inl rfl | exact Or.inr ⟨_, rfl, rfl, rfl⟩

/-- Only its own call takes a listener away. -/
theorem Effect.mem_stateChangeListeners [DecidableEq ι] [DecidableEq ρ]
    {m : AbstractApplicationManager ρ η} {i : ι}
    {answer : Answer η} {d d' : ApplicationDescriptor ι ρ} {v v' : View ρ}
    (h : Effect m i answer d v d' v')
    {l : LatchedStateChangeListener ι} (hl : l ∈ d.stateChangeListeners) (hi : l.owner ≠ i) :
    l ∈ d'.stateChangeListeners := by
  cases h with
  | listen => exact List.mem_append_left _ hl
  | unlisten =>
    refine (List.mem_erase_of_ne ?_).mpr hl
    rintro rfl
    exact hi rfl
  | _ => exact hl

section Effects

variable [DecidableEq ι] [DecidableEq ρ] {m : AbstractApplicationManager ρ η} {i : ι}
  {answer : Answer η} {d d' : ApplicationDescriptor ι ρ}

theorem effect_of_enter {s : Stage ρ} (h : d.enter i = some d') :
    Effect m i answer d ⟨false, s⟩ d' ⟨true, s⟩ := by
  unfold ApplicationDescriptor.enter at h
  split at h
  · obtain rfl := Option.some.inj h
    exact .enter (by simpa using ‹d.monitor.isNone = true›)
  · cases h

theorem effect_of_getApplicationState {p p' : GetPoint}
    (h : getApplicationState i d p = some (d', p')) :
    Effect m i answer d ⟨p.inside, .idle⟩ d' ⟨p'.inside, .idle⟩ := by
  cases p with
  | entry =>
    obtain ⟨d₁, hd, h⟩ := Option.map_eq_some_iff.mp h
    obtain ⟨rfl, rfl⟩ := Prod.mk.inj h
    exact effect_of_enter hd
  | locked =>
    obtain ⟨rfl, rfl⟩ := Prod.mk.inj (Option.some.inj h)
    exact .read
  | read state =>
    obtain ⟨rfl, rfl⟩ := Prod.mk.inj (Option.some.inj h)
    exact .leave
  | returned state => cases h

theorem effect_of_setApplicationState {new : ApplicationState} {p p' : SetPoint}
    (h : setApplicationState i new d p = some (d', p')) :
    Effect m i answer d ⟨p.inside, p.stage new⟩ d' ⟨p'.inside, p'.stage new⟩ := by
  cases p with
  | entry =>
    obtain ⟨d₁, hd, h⟩ := Option.map_eq_some_iff.mp h
    obtain ⟨rfl, rfl⟩ := Prod.mk.inj h
    exact effect_of_enter hd
  | locked =>
    obtain ⟨rfl, rfl⟩ := Prod.mk.inj (Option.some.inj h)
    exact .swap
  | swapped old =>
    obtain ⟨rfl, rfl⟩ := Prod.mk.inj (Option.some.inj h)
    exact .fire
  | fired =>
    obtain ⟨rfl, rfl⟩ := Prod.mk.inj (Option.some.inj h)
    exact .leave
  | returned => cases h

theorem effect_of_compareAndSetApplicationState {expect new : ApplicationState} {p p' : CasPoint}
    (h : compareAndSetApplicationState i expect new d p = some (d', p')) :
    Effect m i answer d ⟨false, p.stage expect new⟩ d' ⟨false, p'.stage expect new⟩ := by
  cases p with
  | entry =>
    simp only [compareAndSetApplicationState] at h
    split at h
    · rename_i heq
      obtain ⟨rfl, rfl⟩ := Prod.mk.inj (Option.some.inj h)
      subst heq
      exact .compareAndSwap
    · obtain ⟨rfl, rfl⟩ := Prod.mk.inj (Option.some.inj h)
      exact .skip ‹_›
  | swapped =>
    obtain ⟨rfl, rfl⟩ := Prod.mk.inj (Option.some.inj h)
    exact .fire
  | returned successfullySet => cases h

theorem effect_of_awaitAnyOfStates {states : List ApplicationState} {interrupt : Bool}
    {p p' : AwaitPoint} (h : awaitAnyOfStates i states interrupt d p = some (d', p')) :
    Effect m i answer d (p.view states) d' (p'.view states) := by
  cases p with
  | entry =>
    obtain ⟨d₁, hd, h⟩ := Option.map_eq_some_iff.mp h
    obtain ⟨rfl, rfl⟩ := Prod.mk.inj h
    exact effect_of_enter hd
  | locked =>
    obtain ⟨rfl, rfl⟩ := Prod.mk.inj (Option.some.inj h)
    cases hin : d.isInAnyOfStates states with
    | false => exact .check hin
    | true => exact .satisfy hin
  | checked =>
    obtain ⟨rfl, rfl⟩ := Prod.mk.inj (Option.some.inj h)
    exact .listen
  | added =>
    obtain ⟨rfl, rfl⟩ := Prod.mk.inj (Option.some.inj h)
    exact .leave
  | satisfied =>
    obtain ⟨rfl, rfl⟩ := Prod.mk.inj (Option.some.inj h)
    exact .leave
  | waiting =>
    simp only [awaitAnyOfStates] at h
    split at h
    · obtain ⟨rfl, rfl⟩ := Prod.mk.inj (Option.some.inj h)
      exact .wake
    · split at h
      · obtain ⟨rfl, rfl⟩ := Prod.mk.inj (Option.some.inj h)
        exact .wake
      · cases h
  | removing interrupted =>
    obtain ⟨rfl, rfl⟩ := Prod.mk.inj (Option.some.inj h)
    cases interrupted <;> exact .unlisten
  | returned => cases h
  | interrupted => cases h

theorem effect_of_deploy {p p' : DeployPoint ρ} (h : deploy m i answer d p = some (d', p')) :
    Effect m i answer d p.view d' p'.view := by
  cases p with
  | deploying =>
    simp only [deploy] at h
    split at h
    · split at h
      · rename_i hdeploy
        obtain ⟨rfl, rfl⟩ := Prod.mk.inj (Option.some.inj h)
        exact .create rfl hdeploy
      · obtain ⟨rfl, rfl⟩ := Prod.mk.inj (Option.some.inj h)
        exact .fail
    · cases h
  | created reference =>
    obtain ⟨rfl, rfl⟩ := Prod.mk.inj (Option.some.inj h)
    exact .store
  | updating p =>
    obtain ⟨⟨d₁, p₁⟩, hp, h⟩ := Option.map_eq_some_iff.mp h
    obtain ⟨rfl, rfl⟩ := Prod.mk.inj h
    exact effect_of_setApplicationState hp
  | thrown e => cases h

theorem effect_of_kill {p p' : KillPoint} (h : kill m i answer d p = some (d', p')) :
    Effect m i answer d p.view d' p'.view := by
  cases p with
  | killing =>
    simp only [kill] at h
    split at h
    · split at h
      · rename_i hkill
        obtain ⟨rfl, rfl⟩ := Prod.mk.inj (Option.some.inj h)
        exact .kill rfl hkill
      · obtain ⟨rfl, rfl⟩ := Prod.mk.inj (Option.some.inj h)
        split
        · exact .failEnding
        · exact .fail
    · cases h
  | updating p =>
    obtain ⟨⟨d₁, p₁⟩, hp, h⟩ := Option.map_eq_some_iff.mp h
    obtain ⟨rfl, rfl⟩ := Prod.mk.inj h
    exact effect_of_setApplicationState hp
  | thrown e => cases h

/-- A scan's read. `q` wraps a control point of `getApplicationState`. -/
theorem effect_of_reading {α : Type} {q : GetPoint → α} {p : GetPoint} {p' : α}
    (view : α → View ρ) (hview : ∀ p, view (q p) = ⟨p.inside, .idle⟩)
    (h : (getApplicationState i d p).map (fun r => (r.1, q r.2)) = some (d', p')) :
    Effect m i answer d (view (q p)) d' (view p') := by
  obtain ⟨⟨d₁, p₁⟩, hp, h⟩ := Option.map_eq_some_iff.mp h
  obtain ⟨rfl, rfl⟩ := Prod.mk.inj h
  rw [hview, hview]
  exact effect_of_getApplicationState hp

theorem effect_of_statusScan {p p' : StatusScanPoint}
    (h : statusScan m i answer d p = some (d', p')) : Effect m i answer d p.view d' p'.view := by
  cases p with
  | reading p =>
    cases p with
    | returned old =>
      simp only [statusScan] at h
      split at h
      · split at h
        · rename_i new hnew
          obtain ⟨rfl, rfl⟩ := Prod.mk.inj (Option.some.inj h)
          exact .probe rfl hnew
        · obtain ⟨rfl, rfl⟩ := Prod.mk.inj (Option.some.inj h)
          exact .fail
      · cases h
    | _ => exact effect_of_reading StatusScanPoint.view (fun _ => rfl) h
  | updating old new p =>
    obtain ⟨⟨d₁, p₁⟩, hp, h⟩ := Option.map_eq_some_iff.mp h
    obtain ⟨rfl, rfl⟩ := Prod.mk.inj h
    exact effect_of_compareAndSetApplicationState hp
  | thrown e => cases h

theorem effect_of_autoDeployScan {p p' : AutoDeployScanPoint ρ}
    (h : autoDeployScan m i answer d p = some (d', p')) :
    Effect m i answer d p.view d' p'.view := by
  cases p with
  | reading p =>
    cases p with
    | returned state =>
      obtain ⟨rfl, rfl⟩ := Prod.mk.inj (Option.some.inj h)
      split
      · exact .stay
      · exact .fail
    | _ => exact effect_of_reading AutoDeployScanPoint.view (fun _ => rfl) h
  | deploying p =>
    obtain ⟨⟨d₁, p₁⟩, hp, h⟩ := Option.map_eq_some_iff.mp h
    obtain ⟨rfl, rfl⟩ := Prod.mk.inj h
    exact effect_of_deploy hp
  | skipped => cases h

theorem effect_of_autoKillScan {p p' : AutoKillScanPoint}
    (h : autoKillScan m i answer d p = some (d', p')) : Effect m i answer d p.view d' p'.view := by
  cases p with
  | reading p =>
    cases p with
    | returned state =>
      obtain ⟨rfl, rfl⟩ := Prod.mk.inj (Option.some.inj h)
      split
      · exact .stay
      · exact .fail
    | _ => exact effect_of_reading AutoKillScanPoint.view (fun _ => rfl) h
  | killing p =>
    obtain ⟨⟨d₁, p₁⟩, hp, h⟩ := Option.map_eq_some_iff.mp h
    obtain ⟨rfl, rfl⟩ := Prod.mk.inj h
    exact effect_of_kill hp
  | skipped => cases h

/-- **The list of effects is complete.** -/
theorem Call.effect_of_next {k k' : Call ρ} (h : k.next m i answer d = some (d', k')) :
    Effect m i answer d k.view d' k'.view := by
  cases k <;> obtain ⟨⟨d₁, p₁⟩, hp, h⟩ := Option.map_eq_some_iff.mp h <;>
    obtain ⟨rfl, rfl⟩ := Prod.mk.inj h
  case awaitAnyOfStates => exact effect_of_awaitAnyOfStates hp
  case setApplicationState => exact effect_of_setApplicationState hp
  case compareAndSetApplicationState => exact effect_of_compareAndSetApplicationState hp
  case deploy => exact effect_of_deploy hp
  case kill => exact effect_of_kill hp
  case statusScan => exact effect_of_statusScan hp
  case autoDeployScan => exact effect_of_autoDeployScan hp
  case autoKillScan => exact effect_of_autoKillScan hp

/-! ### The machine -/

variable {e : Answer η} {c c' : DescriptorConfig ι ρ}

/-- Every step of the machine is an effect of the thread that takes it. -/
theorem effect_of_step (h : (descriptorMachine ι m).step c (i, e) = some c') :
    Effect m i e c.shared (c.thread i).view c'.shared (c'.thread i).view := by
  obtain ⟨o, ho, rfl⟩ | ⟨k, d', k', hk, hn, rfl⟩ := Interleaving.step_cases h
  · simpa [ho] using Effect.stay
  · simpa [hk] using Call.effect_of_next hn

omit [DecidableEq ι] [DecidableEq ρ] in
/-- A call that begins is outside the monitor, and has decided at most what it is going to write. -/
theorem Operation.view_start (o : Operation) :
    (o.start : Call ρ).view = ⟨false, .idle⟩ ∨
      ∃ expect new, (o.start : Call ρ).view = ⟨false, .ready expect new⟩ := by
  cases o with
  | setApplicationState new => exact Or.inr ⟨none, new, rfl⟩
  | compareAndSetApplicationState expect new => exact Or.inr ⟨some expect, new, rfl⟩
  | _ => exact Or.inl rfl

variable {G : ApplicationDescriptor ι ρ → Prop} {A : ι → ApplicationDescriptor ι ρ → View ρ → Prop}
  {P : DescriptorConfig ι ρ → ι × Answer η → Prop}

/-- **The invariant rule for a descriptor.** `A i` is asserted of the view of call `i`. An effect
keeps the descriptor's assertion and the acting call's own, and does not disturb another's. -/
theorem descriptor_invariant (h : (descriptorMachine ι m).ReachableOf P c)
    (hinit : G .new ∧ ∀ i o, A i .new (Operation.start o : Call ρ).view)
    (hown : ∀ c i e c' d' v v', (descriptorMachine ι m).ReachableOf P c → G c.shared →
      (∀ j, A j c.shared (c.thread j).view) → P c (i, e) →
      (descriptorMachine ι m).step c (i, e) = some c' → c'.shared = d' → (c.thread i).view = v →
      Effect m i e c.shared v d' v' → G d' ∧ A i d' v')
    (hother : ∀ c i e c' d' v v' j, (descriptorMachine ι m).ReachableOf P c → G c.shared →
      (∀ j, A j c.shared (c.thread j).view) → P c (i, e) →
      (descriptorMachine ι m).step c (i, e) = some c' → c'.shared = d' → (c.thread i).view = v →
      Effect m i e c.shared v d' v' → j ≠ i → A j d' (c.thread j).view) :
    G c.shared ∧ ∀ i, A i c.shared (c.thread i).view := by
  refine Interleaving.owickiGries (G := G) (J := fun i d t => A i d t.view) h
    ⟨hinit.1, hinit.2⟩ ?_ ?_
  · intro c i e c' hr hc hP hs
    exact hown c i e c' _ _ _ hr hc.1 hc.2 hP hs rfl rfl (effect_of_step hs)
  · intro c i e c' j hr hc hP hs hj
    exact hother c i e c' _ _ _ j hr hc.1 hc.2 hP hs rfl rfl (effect_of_step hs) hj

/-- The invariant rule, for an assertion about the descriptor alone. -/
theorem shared_invariant (h : (descriptorMachine ι m).ReachableOf P c) (hinit : G .new)
    (hstep : ∀ c i e d' v', (descriptorMachine ι m).ReachableOf P c → G c.shared → P c (i, e) →
      Effect m i e c.shared (c.thread i).view d' v' → G d') : G c.shared := by
  refine (descriptor_invariant (A := fun _ _ _ => True) h ⟨hinit, fun _ _ => trivial⟩ ?_ ?_).1
  · rintro c i e c' d' v v' hr hG - hP - - rfl heff
    exact ⟨hstep c i e d' v' hr hG hP heff, trivial⟩
  · intros
    trivial

/-- A call that has not begun has left nothing in the log. -/
theorem owner_ne_of_ready (h : (descriptorMachine ι m).ReachableOf P c) {i : ι}
    {o : Operation} (hi : c.thread i = .ready o) {x : Event ι ρ} (hx : x ∈ c.shared.log) :
    x.owner ≠ i := by
  refine (Interleaving.owickiGries (G := fun _ => True) (J := fun i d t =>
    ∀ o, t = .ready o → ∀ x ∈ d.log, x.owner ≠ i) h ⟨trivial, ?_⟩ ?_ ?_).2 i o hi x hx
  · intro i o o' _ x hx
    cases hx
  · intro c i e c' _ _ _ hs
    refine ⟨trivial, fun o ho => ?_⟩
    obtain ⟨o', -, rfl⟩ | ⟨k, d', k', -, -, rfl⟩ := Interleaving.step_cases hs <;>
      simp at ho
  · intro c i e c' j _ hc _ hs hj o ho x hx
    obtain hlog | ⟨y, hy, hlog⟩ := (effect_of_step hs).log_eq
    · exact hc.2 j o ho x (hlog ▸ hx)
    · rw [hlog] at hx
      obtain hx | hx := List.mem_append.mp hx
      · exact hc.2 j o ho x hx
      · rw [List.mem_singleton.mp hx, hy]
        exact hj.symm

end Effects

end Shabdiz
