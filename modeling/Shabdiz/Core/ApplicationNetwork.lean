import Shabdiz.Concurrency.Interleaving
import Shabdiz.Core.ApplicationDescriptor

/-!
# The operations of an application network

`ApplicationNetwork.deploy` and `ApplicationNetwork.kill` call the manager and then write the
state; the scanners of the network read the state, decide, and call one of them or compare and
set a probed state. All of them act on one descriptor at a time, so the machine of a network is a
product: one machine for each descriptor, whose threads are the calls made on that descriptor.

`deployAll` and `killAll` submit one task per descriptor, and each task is `deploy` or `kill` on
its descriptor; a scanner cycle submits one scan per descriptor. A cancelled task that has not
begun never begins, a cancelled scan may go on while the next cycle has started, and there is no
bound on how many calls are in flight. So the threads of a descriptor are an arbitrary family of
calls, any of which may never begin.

## Main definitions

* `deploy`, `kill` — the operations of the network
* `statusScan`, `autoDeployScan`, `autoKillScan` — one scan of one descriptor
* `Operation`, `Call` — everything that can be called on a descriptor
* `calls`, `descriptorMachine`, `networkMachine` — the calls, interleaved
* `NoDirectWrite` — steps of the operations of a network, as opposed to writes of a chosen state
-/

namespace Shabdiz

open ApplicationDescriptor

variable {ι ρ η : Type}

/-- What the environment decides in a step. -/
inductive Answer (η : Type) where
  /-- Nothing. -/
  | go
  /-- The thread is interrupted. -/
  | interrupt
  /-- What the manager's `deploy` meets. -/
  | deploy (answer : η)
  /-- What the manager's `kill` meets, and whether the instance ends even if `kill` throws. -/
  | kill (answer : η) (ends : Bool)
  /-- What the manager's `probeState` meets. -/
  | probe (answer : η) (host : Option HostAnswer)

/-! ### Steps of the manager -/

namespace ApplicationDescriptor

/-- `manager.deploy` has started an instance and returned a reference to it. -/
@[simps]
def create (i : ι) (reference : ρ) (d : ApplicationDescriptor ι ρ) : ApplicationDescriptor ι ρ :=
  { d with alive := reference :: d.alive, log := d.log ++ [.deployed i reference] }

/-- Write the reference of the application into its field. -/
@[simps]
def setApplicationReference (i : ι) (reference : ρ) (d : ApplicationDescriptor ι ρ) :
    ApplicationDescriptor ι ρ :=
  { d with applicationReference := some reference, log := d.log ++ [.stored i reference] }

/-- The instance that the application reference denotes ends. -/
@[simps]
def endInstance [DecidableEq ρ] (d : ApplicationDescriptor ι ρ) : ApplicationDescriptor ι ρ :=
  { d with
    alive :=
      match d.applicationReference with
      | none => d.alive
      | some reference => d.alive.erase reference }

end ApplicationDescriptor

/-! ### `deploy` and `kill` -/

/-- Control points of `ApplicationNetwork.deploy`. -/
inductive DeployPoint (ρ : Type) where
  /-- Inside `manager.deploy`. -/
  | deploying
  /-- An instance is deployed; its reference is yet to be stored. -/
  | created (reference : ρ)
  /-- Inside `setApplicationState(DEPLOYED)`. -/
  | updating (p : SetPoint)
  | thrown (e : Throwable)
deriving DecidableEq

/-- The next step of `deploy(descriptor)`: the manager deploys, its reference is stored, and the
state becomes deployed. -/
def deploy (m : AbstractApplicationManager ρ η) (i : ι) (answer : Answer η)
    (d : ApplicationDescriptor ι ρ) :
    DeployPoint ρ → Option (ApplicationDescriptor ι ρ × DeployPoint ρ)
  | .deploying =>
    match answer with
    | .deploy answer =>
      match m.deploy answer with
      | .ok reference => some (d.create i reference, .created reference)
      | .error e => some (d, .thrown e)
    | _ => none
  | .created reference => some (d.setApplicationReference i reference, .updating .entry)
  | .updating p =>
    (setApplicationState i .deployed d p).map fun r => (r.1, .updating r.2)
  | .thrown _ => none

/-- Control points of `ApplicationNetwork.kill`. -/
inductive KillPoint where
  /-- Inside `manager.kill`. -/
  | killing
  /-- Inside `setApplicationState(KILLED)`. -/
  | updating (p : SetPoint)
  | thrown (e : Throwable)
deriving DecidableEq

/-- The next step of `kill(descriptor)`: the manager kills, and the state becomes killed. An
exception of the manager may come before or after the end of the instance. -/
def kill [DecidableEq ρ] (m : AbstractApplicationManager ρ η) (i : ι) (answer : Answer η)
    (d : ApplicationDescriptor ι ρ) : KillPoint → Option (ApplicationDescriptor ι ρ × KillPoint)
  | .killing =>
    match answer with
    | .kill answer ends =>
      match m.kill d.applicationReference answer with
      | .ok () => some (d.endInstance.record (.killed i), .updating .entry)
      | .error e => some (if ends then d.endInstance else d, .thrown e)
    | _ => none
  | .updating p =>
    (setApplicationState i .killed d p).map fun r => (r.1, .updating r.2)
  | .thrown _ => none

/-! ### Scans -/

/-- Control points of `StatusScanner.scan`. -/
inductive StatusScanPoint where
  /-- Inside `getApplicationState`; once it has returned, inside `probeState`. -/
  | reading (p : GetPoint)
  /-- Inside `compareAndSetApplicationState(old_state, new_state)`. -/
  | updating (old new : ApplicationState) (p : CasPoint)
  | thrown (e : Throwable)
deriving DecidableEq

/-- The next step of a status scan of one descriptor: read the state, probe, and compare-and-set
the state that was read to the one that was probed. -/
def statusScan (m : AbstractApplicationManager ρ η) (i : ι) (answer : Answer η)
    (d : ApplicationDescriptor ι ρ) :
    StatusScanPoint → Option (ApplicationDescriptor ι ρ × StatusScanPoint)
  | .reading (.returned old) =>
    match answer with
    | .probe answer host =>
      match m.probeState d.applicationReference answer host with
      | .ok new =>
        let called := (m.attemptApplicationCall d.applicationReference answer).isOk
        some (d.record (.probed i called new), .updating old new .entry)
      | .error e => some (d, .thrown e)
    | _ => none
  | .reading p => (getApplicationState i d p).map fun r => (r.1, .reading r.2)
  | .updating old new p =>
    (compareAndSetApplicationState i old new d p).map fun r => (r.1, .updating old new r.2)
  | .thrown _ => none

/-- The auto-deploy scanner deploys what is authorised. -/
def isDeployable (state : ApplicationState) : Bool := state = .auth

/-- Control points of `AutoDeployScanner.scan`. -/
inductive AutoDeployScanPoint (ρ : Type) where
  | reading (p : GetPoint)
  /-- Inside `network.deploy`; an exception it throws is only logged. -/
  | deploying (p : DeployPoint ρ)
  | skipped
deriving DecidableEq

/-- The next step of an auto-deploy scan of one descriptor. -/
def autoDeployScan (m : AbstractApplicationManager ρ η) (i : ι) (answer : Answer η)
    (d : ApplicationDescriptor ι ρ) :
    AutoDeployScanPoint ρ → Option (ApplicationDescriptor ι ρ × AutoDeployScanPoint ρ)
  | .reading (.returned state) =>
    some (d, if isDeployable state then .deploying .deploying else .skipped)
  | .reading p => (getApplicationState i d p).map fun r => (r.1, .reading r.2)
  | .deploying p => (deploy m i answer d p).map fun r => (r.1, .deploying r.2)
  | .skipped => none

/-- The auto-kill scanner kills what is running or deployed. -/
def isKillable (state : ApplicationState) : Bool := state = .running || state = .deployed

/-- Control points of `AutoKillScanner.scan`. -/
inductive AutoKillScanPoint where
  | reading (p : GetPoint)
  /-- Inside `network.kill`; an exception it throws is only logged. -/
  | killing (p : KillPoint)
  | skipped
deriving DecidableEq

/-- The next step of an auto-kill scan of one descriptor. -/
def autoKillScan [DecidableEq ρ] (m : AbstractApplicationManager ρ η) (i : ι) (answer : Answer η)
    (d : ApplicationDescriptor ι ρ) :
    AutoKillScanPoint → Option (ApplicationDescriptor ι ρ × AutoKillScanPoint)
  | .reading (.returned state) =>
    some (d, if isKillable state then .killing .killing else .skipped)
  | .reading p => (getApplicationState i d p).map fun r => (r.1, .reading r.2)
  | .killing p => (kill m i answer d p).map fun r => (r.1, .killing r.2)
  | .skipped => none

/-! ### Everything that can be called on a descriptor -/

/-- A call, before it begins. -/
inductive Operation where
  | awaitAnyOfStates (states : List ApplicationState)
  | setApplicationState (new : ApplicationState)
  | compareAndSetApplicationState (expect new : ApplicationState)
  /-- `ApplicationNetwork.deploy`, called by a user or as a task of `deployAll`. -/
  | deploy
  /-- `ApplicationNetwork.kill`, called by a user or as a task of `killAll`. -/
  | kill
  | statusScan
  | autoDeployScan
  | autoKillScan
deriving DecidableEq

/-- Whether an operation is a call of one of the descriptor's own writers, with a state that the
caller has chosen. -/
def Operation.writesDirectly : Operation → Bool
  | setApplicationState _ => true
  | compareAndSetApplicationState _ _ => true
  | _ => false

/-- A call in progress, with its control point. -/
inductive Call (ρ : Type) where
  | awaitAnyOfStates (states : List ApplicationState) (p : AwaitPoint)
  | setApplicationState (new : ApplicationState) (p : SetPoint)
  | compareAndSetApplicationState (expect new : ApplicationState) (p : CasPoint)
  | deploy (p : DeployPoint ρ)
  | kill (p : KillPoint)
  | statusScan (p : StatusScanPoint)
  | autoDeployScan (p : AutoDeployScanPoint ρ)
  | autoKillScan (p : AutoKillScanPoint)
deriving DecidableEq

/-- The first control point of a call. -/
def Operation.start : Operation → Call ρ
  | awaitAnyOfStates states => .awaitAnyOfStates states .entry
  | setApplicationState new => .setApplicationState new .entry
  | compareAndSetApplicationState expect new => .compareAndSetApplicationState expect new .entry
  | deploy => .deploy .deploying
  | kill => .kill .killing
  | statusScan => .statusScan (.reading .entry)
  | autoDeployScan => .autoDeployScan (.reading .entry)
  | autoKillScan => .autoKillScan (.reading .entry)

namespace Call

/-- The operation that a call in progress performs. -/
def operation : Call ρ → Operation
  | awaitAnyOfStates states _ => .awaitAnyOfStates states
  | setApplicationState new _ => .setApplicationState new
  | compareAndSetApplicationState expect new _ => .compareAndSetApplicationState expect new
  | deploy _ => .deploy
  | kill _ => .kill
  | statusScan _ => .statusScan
  | autoDeployScan _ => .autoDeployScan
  | autoKillScan _ => .autoKillScan

/-- One atomic step of a call. -/
def next [DecidableEq ι] [DecidableEq ρ] (m : AbstractApplicationManager ρ η) (i : ι)
    (answer : Answer η) (d : ApplicationDescriptor ι ρ) :
    Call ρ → Option (ApplicationDescriptor ι ρ × Call ρ)
  | awaitAnyOfStates states p =>
    (Shabdiz.awaitAnyOfStates i states (answer matches .interrupt) d p).map fun r =>
      (r.1, awaitAnyOfStates states r.2)
  | setApplicationState new p =>
    (Shabdiz.setApplicationState i new d p).map fun r => (r.1, setApplicationState new r.2)
  | compareAndSetApplicationState expect new p =>
    (Shabdiz.compareAndSetApplicationState i expect new d p).map fun r =>
      (r.1, compareAndSetApplicationState expect new r.2)
  | deploy p => (Shabdiz.deploy m i answer d p).map fun r => (r.1, deploy r.2)
  | kill p => (Shabdiz.kill m i answer d p).map fun r => (r.1, kill r.2)
  | statusScan p => (Shabdiz.statusScan m i answer d p).map fun r => (r.1, statusScan r.2)
  | autoDeployScan p =>
    (Shabdiz.autoDeployScan m i answer d p).map fun r => (r.1, autoDeployScan r.2)
  | autoKillScan p => (Shabdiz.autoKillScan m i answer d p).map fun r => (r.1, autoKillScan r.2)

theorem operation_start (o : Operation) : (o.start : Call ρ).operation = o := by
  cases o <;> rfl

theorem operation_next [DecidableEq ι] [DecidableEq ρ] {m : AbstractApplicationManager ρ η} {i : ι}
    {answer : Answer η} {d d' : ApplicationDescriptor ι ρ} {k k' : Call ρ}
    (h : k.next m i answer d = some (d', k')) : k'.operation = k.operation := by
  cases k <;> obtain ⟨r, -, hr⟩ := Option.map_eq_some_iff.mp h <;>
    obtain rfl := congrArg Prod.snd hr <;> rfl

end Call

section Machine

variable [DecidableEq ι] [DecidableEq ρ]

/-- The calls on one descriptor. -/
@[simps]
def calls (ι : Type) [DecidableEq ι] (m : AbstractApplicationManager ρ η) :
    Interleaving ι (ApplicationDescriptor ι ρ) Operation (Call ρ) (Answer η) where
  initial := ApplicationDescriptor.new
  start := Operation.start
  next i answer d k := k.next m i answer d
  op := Call.operation
  op_start := Call.operation_start
  op_next := Call.operation_next

/-- A descriptor, and all calls made on it. -/
abbrev DescriptorConfig (ι ρ : Type) :=
  Config ι (ApplicationDescriptor ι ρ) Operation (Call ρ)

/-- The calls on one descriptor, in any order. -/
def descriptorMachine (ι : Type) [DecidableEq ι] (m : AbstractApplicationManager ρ η) :
    Machine (DescriptorConfig ι ρ) (ι × Answer η) :=
  (calls ι m).machine

/-- The acting call is not one of those that write a state of the caller's choice. -/
def NoDirectWrite (m : AbstractApplicationManager ρ η) (c : DescriptorConfig ι ρ)
    (a : ι × Answer η) : Prop :=
  ((calls ι m).opOf (c.thread a.1)).writesDirectly = false

instance (m : AbstractApplicationManager ρ η) (c : DescriptorConfig ι ρ) (a : ι × Answer η) :
    Decidable (NoDirectWrite m c a) :=
  inferInstanceAs (Decidable (_ = false))

/-- A network of descriptors, each with the manager that `m` gives it. -/
def networkMachine {δ : Type} [DecidableEq δ] (ι : Type) [DecidableEq ι]
    (m : δ → AbstractApplicationManager ρ η) :
    Machine (δ → DescriptorConfig ι ρ) (δ × (ι × Answer η)) :=
  Machine.pi fun d => descriptorMachine ι (m d)

end Machine

end Shabdiz
