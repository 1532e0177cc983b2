import Mathlib.Data.Fintype.Basic
import Shabdiz.Concurrency.Rounds
import Shabdiz.Core.ApplicationNetwork

/-!
# Automatic deployment

A network with automatic deployment looks after itself: the status scanner finds out the state of
each application, and the auto-deploy scanner deploys those that are `AUTH`. Each of the two goes
through its cycles at its own pace, and the two may scan a descriptor at once. In a cycle every
descriptor is scanned, all at the same time. A cycle ends when all these scans are over, or by its
timeout or an interrupt; then the scans that have not begun are cancelled, and those that are under
way linger: they are interrupted, but go on beside the scans of the next cycle for as long as it
takes them to notice. Nobody else deploys, kills or writes a state.

Instances may end at any time, and a deployment that throws may have started one. While the world is
*calm* they do not, the managers deploy what they are asked to deploy, a probe tells whether the
instance is there that the descriptor refers to, on a host that can be reached, and every cycle ends
because its scans are over. The first theorem says that a calm network becomes what it is meant to
be, from whatever state of descriptors and scans: no application stays down, and none is deployed
again for ever.

The second theorem is about a world that is only *truthful*: no probe reports `AUTH` while the
instance is alive that the descriptor refers to, a deployment that throws leaves no instance behind,
and no cycle ends while a scan is under way. Then the two scanners, which do not wait for each
other, still never deploy a second instance beside a live one. A scan that lingers may.

## Main definitions

* `ScannedDescriptor` — a descriptor, with the scan of each scanner
* `scanMachine` — the cycles of the two scanners
* `World` — what the world may answer; `World.calm`, `World.truthful`
* `ScanStep` — what a step does to a descriptor
* `Healed` — an application that is running, and is left alone

## Main results

* `scanStep_of_step` — the list of what steps do is complete
* `healed_of_rounds` — a calm network is running after six rounds, and stays so
* `soleInstance_of_reachable` — at most one instance of each application
-/

namespace Shabdiz

open ApplicationDescriptor

variable {δ ρ η : Type}

/-! ### The scanners -/

/-- The two scanners. -/
inductive AutoScanner where
  | status
  | autoDeploy
deriving DecidableEq

/-- A scan of a cycle that has ended. -/
inductive LingeringScan (ρ : Type) where
  | status (p : StatusScanPoint)
  | autoDeploy (p : AutoDeployScanPoint ρ)

/-- A descriptor, and where the scanners are with it. -/
structure ScannedDescriptor (ρ : Type) where
  descriptor : ApplicationDescriptor AutoScanner ρ
  statusScan : StatusScanPoint
  autoDeployScan : AutoDeployScanPoint ρ
  /-- The scans that were under way when their cycle ended. -/
  lingering : List (LingeringScan ρ)

/-- Whether a scan has returned or thrown. -/
def StatusScanPoint.isOver : StatusScanPoint → Bool
  | updating _ _ (.returned _) | thrown _ => true
  | _ => false

/-- Whether a scan has begun and is not over. -/
def StatusScanPoint.isUnderWay (p : StatusScanPoint) : Bool := p ≠ .reading .entry && !p.isOver

/-- Whether a scan has returned. What `network.deploy` throws is caught by the scan. -/
def AutoDeployScanPoint.isOver : AutoDeployScanPoint ρ → Bool
  | skipped | deploying (.thrown _) | deploying (.updating .returned) => true
  | _ => false

/-- Whether a scan has begun and is not over. -/
def AutoDeployScanPoint.isUnderWay : AutoDeployScanPoint ρ → Bool
  | reading .entry => false
  | p => !p.isOver

/-- Whether the deployment of a scan has thrown. -/
def AutoDeployScanPoint.hasThrown : AutoDeployScanPoint ρ → Bool
  | deploying (.thrown _) => true
  | _ => false

/-- Whether the deployment of a lingering scan has thrown. -/
def LingeringScan.hasThrown : LingeringScan ρ → Bool
  | status _ => false
  | autoDeploy p => p.hasThrown

namespace ScannedDescriptor

/-- A new descriptor, which each scanner is going to scan. -/
def new : ScannedDescriptor ρ := ⟨.new, .reading .entry, .reading .entry, []⟩

/-- Whether the instance is alive that the descriptor refers to. -/
def isUp [DecidableEq ρ] (x : ScannedDescriptor ρ) : Bool :=
  x.descriptor.applicationReference.any (· ∈ x.descriptor.alive)

/-- One step of a scan. -/
def scan (m : AbstractApplicationManager ρ η) (answer : Answer η) (x : ScannedDescriptor ρ) :
    AutoScanner → Option (ScannedDescriptor ρ)
  | .status =>
    (Shabdiz.statusScan m .status answer x.descriptor x.statusScan).map fun r =>
      { x with descriptor := r.1, statusScan := r.2 }
  | .autoDeploy =>
    (Shabdiz.autoDeployScan m .autoDeploy answer x.descriptor x.autoDeployScan).map fun r =>
      { x with descriptor := r.1, autoDeployScan := r.2 }

/-- One step of the `k`-th lingering scan. -/
def linger (m : AbstractApplicationManager ρ η) (answer : Answer η) (x : ScannedDescriptor ρ)
    (k : ℕ) : Option (ScannedDescriptor ρ) :=
  match x.lingering[k]? with
  | some (.status p) =>
    (Shabdiz.statusScan m .status answer x.descriptor p).map fun r =>
      { x with descriptor := r.1, lingering := x.lingering.set k (.status r.2) }
  | some (.autoDeploy p) =>
    (Shabdiz.autoDeployScan m .autoDeploy answer x.descriptor p).map fun r =>
      { x with descriptor := r.1, lingering := x.lingering.set k (.autoDeploy r.2) }
  | none => none

/-- Whether the scan of the cycle is over. -/
def isOver (x : ScannedDescriptor ρ) : AutoScanner → Bool
  | .status => x.statusScan.isOver
  | .autoDeploy => x.autoDeployScan.isOver

/-- Whether the scan of the cycle has begun and is not over. -/
def isUnderWay (x : ScannedDescriptor ρ) : AutoScanner → Bool
  | .status => x.statusScan.isUnderWay
  | .autoDeploy => x.autoDeployScan.isUnderWay

/-- The scan of a new cycle. -/
def newScan (x : ScannedDescriptor ρ) : AutoScanner → ScannedDescriptor ρ
  | .status => { x with statusScan := .reading .entry }
  | .autoDeploy => { x with autoDeployScan := .reading .entry }

/-- The scan of the cycle, once the cycle has ended. -/
def toLinger (x : ScannedDescriptor ρ) : AutoScanner → LingeringScan ρ
  | .status => .status x.statusScan
  | .autoDeploy => .autoDeploy x.autoDeployScan

/-- A cycle ends and the next one begins. A scan that has not begun is cancelled, or has not been
made as the scanner is disabled; one that is under way lingers. -/
def newCycle (x : ScannedDescriptor ρ) (scanner : AutoScanner) : ScannedDescriptor ρ :=
  if x.isUnderWay scanner then
    { x.newScan scanner with lingering := x.toLinger scanner :: x.lingering }
  else x.newScan scanner

/-- An instance ends by itself. -/
def instanceEnds [DecidableEq ρ] (reference : ρ) (x : ScannedDescriptor ρ) : ScannedDescriptor ρ :=
  { x with descriptor := { x.descriptor with alive := x.descriptor.alive.erase reference } }

/-- Whether a deployment has thrown. -/
def hasThrown (x : ScannedDescriptor ρ) : Bool :=
  x.autoDeployScan.hasThrown || x.lingering.any LingeringScan.hasThrown

/-- A deployment that has thrown has started an instance, to which it returns no reference. -/
def instanceLeft (reference : ρ) (x : ScannedDescriptor ρ) : Option (ScannedDescriptor ρ) :=
  if x.hasThrown then
    some { x with descriptor := { x.descriptor with alive := reference :: x.descriptor.alive } }
  else none

end ScannedDescriptor

/-- What may happen to a network. -/
inductive ScanAction (δ ρ η : Type) where
  | scan (scanner : AutoScanner) (d : δ) (answer : Answer η)
  /-- A scan of a cycle that has ended goes on. -/
  | linger (d : δ) (k : ℕ) (answer : Answer η)
  | newCycle (scanner : AutoScanner)
  | instanceEnds (d : δ) (reference : ρ)
  | instanceLeft (d : δ) (reference : ρ)

/-- Whether an action is the beginning of a cycle. -/
def ScanAction.isNewCycle (scanner : AutoScanner) : ScanAction δ ρ η → Bool
  | newCycle s => s = scanner
  | _ => false

/-- The cycles of the two scanners, over a network of new descriptors. -/
def scanMachine [DecidableEq δ] [DecidableEq ρ] (m : δ → AbstractApplicationManager ρ η) :
    Machine (δ → ScannedDescriptor ρ) (ScanAction δ ρ η) where
  init s := s = fun _ => .new
  step s
    | .scan scanner d answer =>
      ((s d).scan (m d) answer scanner).map (Function.update s d)
    | .linger d k answer => ((s d).linger (m d) answer k).map (Function.update s d)
    | .newCycle scanner => some fun d => (s d).newCycle scanner
    | .instanceEnds d reference => some (Function.update s d ((s d).instanceEnds reference))
    | .instanceLeft d reference => ((s d).instanceLeft reference).map (Function.update s d)

/-- What the world may do. -/
structure World where
  /-- The states a probe may report, given whether the instance is alive that the descriptor
  refers to. -/
  reports : Bool → ApplicationState → Bool
  /-- Whether anything may fail, and a cycle leave out a scan. -/
  fails : Bool
  /-- Whether cycles may leave scans behind that are under way, and deployments that fail an
  instance. -/
  leavesBehind : Bool

/-- Nothing fails, nothing is left behind, and probes tell what there is. -/
def World.calm : World where
  reports up new := new = if up then .running else .auth
  fails := false
  leavesBehind := false

/-- Anything may fail, but nothing is left behind, and a probe does not report `AUTH` of what is
alive. -/
def World.truthful : World where
  reports up new := !up || new ≠ .auth
  fails := true
  leavesBehind := false

/-- Whether the world may do so. -/
def World.allows [Fintype δ] [DecidableEq ρ] (w : World) (m : δ → AbstractApplicationManager ρ η)
    (s : δ → ScannedDescriptor ρ) : ScanAction δ ρ η → Bool
  | .scan .status d (.probe answer host) =>
    match (m d).probeState (s d).descriptor.applicationReference answer host with
    | .ok new => w.reports (s d).isUp new
    | .error _ => w.fails
  | .scan .autoDeploy d (.deploy answer) => ((m d).deploy answer).isOk || w.fails
  | .scan _ _ _ => true
  | .newCycle scanner =>
    ∀ d, (w.fails || (s d).isOver scanner) && (w.leavesBehind || !(s d).isUnderWay scanner)
  | .instanceEnds _ _ => w.fails
  | .linger _ _ _ | .instanceLeft _ _ => w.leavesBehind

/-! ### What steps do -/

section Steps

variable [DecidableEq ρ] {m : AbstractApplicationManager ρ η} {w : World} {answer : Answer η}
  {x y : ScannedDescriptor ρ}

/-- What a step does to a descriptor in a world in which nothing is left behind: the guards that let
it happen, and the descriptor after it. -/
inductive ScanStep (w : World) (x : ScannedDescriptor ρ) : ScannedDescriptor ρ → Prop where
  | enterStatus (hp : x.statusScan = .reading .entry) :
      ScanStep w x { x with
        descriptor := x.descriptor.hold .status, statusScan := .reading .locked }
  | readStatus (hp : x.statusScan = .reading .locked) :
      ScanStep w x { x with
        descriptor := x.descriptor.record (.read .status x.descriptor.state)
        statusScan := .reading (.read x.descriptor.state) }
  | leaveStatus {old} (hp : x.statusScan = .reading (.read old)) :
      ScanStep w x { x with
        descriptor := x.descriptor.leave, statusScan := .reading (.returned old) }
  | probe {old new called} (hp : x.statusScan = .reading (.returned old))
      (hreports : w.reports x.isUp new = true) (hne : new ≠ .deployed) :
      ScanStep w x { x with
        descriptor := x.descriptor.record (.probed .status called new)
        statusScan := .updating old new .entry }
  | probeFails {old e} (hp : x.statusScan = .reading (.returned old)) (hfails : w.fails = true) :
      ScanStep w x { x with statusScan := .thrown e }
  | compareAndSwap {new} (hp : x.statusScan = .updating x.descriptor.state new .entry) :
      ScanStep w x { x with
        descriptor := x.descriptor.swap .status new
        statusScan := .updating x.descriptor.state new .swapped }
  | skip {old new} (hp : x.statusScan = .updating old new .entry)
      (hstate : x.descriptor.state ≠ old) :
      ScanStep w x { x with statusScan := .updating old new (.returned false) }
  | fireStatus {old new} (hp : x.statusScan = .updating old new .swapped) :
      ScanStep w x { x with
        descriptor := x.descriptor.firePropertyChange .status old new
        statusScan := .updating old new (.returned true) }
  | enterDeploy (hp : x.autoDeployScan = .reading .entry) :
      ScanStep w x { x with
        descriptor := x.descriptor.hold .autoDeploy, autoDeployScan := .reading .locked }
  | readDeploy (hp : x.autoDeployScan = .reading .locked) :
      ScanStep w x { x with
        descriptor := x.descriptor.record (.read .autoDeploy x.descriptor.state)
        autoDeployScan := .reading (.read x.descriptor.state) }
  | leaveDeploy {state} (hp : x.autoDeployScan = .reading (.read state)) :
      ScanStep w x { x with
        descriptor := x.descriptor.leave, autoDeployScan := .reading (.returned state) }
  | decide {state} (hp : x.autoDeployScan = .reading (.returned state)) :
      ScanStep w x { x with
        autoDeployScan := if isDeployable state then .deploying .deploying else .skipped }
  | create {reference} (hp : x.autoDeployScan = .deploying .deploying) :
      ScanStep w x { x with
        descriptor := x.descriptor.create .autoDeploy reference
        autoDeployScan := .deploying (.created reference) }
  | deployFails {e} (hp : x.autoDeployScan = .deploying .deploying) (hfails : w.fails = true) :
      ScanStep w x { x with autoDeployScan := .deploying (.thrown e) }
  | store {reference} (hp : x.autoDeployScan = .deploying (.created reference)) :
      ScanStep w x { x with
        descriptor := x.descriptor.setApplicationReference .autoDeploy reference
        autoDeployScan := .deploying (.updating .entry) }
  | enterSet (hp : x.autoDeployScan = .deploying (.updating .entry)) :
      ScanStep w x { x with
        descriptor := x.descriptor.hold .autoDeploy
        autoDeployScan := .deploying (.updating .locked) }
  | swap (hp : x.autoDeployScan = .deploying (.updating .locked)) :
      ScanStep w x { x with
        descriptor := x.descriptor.swap .autoDeploy .deployed
        autoDeployScan := .deploying (.updating (.swapped x.descriptor.state)) }
  | fireDeploy {old} (hp : x.autoDeployScan = .deploying (.updating (.swapped old))) :
      ScanStep w x { x with
        descriptor := x.descriptor.firePropertyChange .autoDeploy old .deployed
        autoDeployScan := .deploying (.updating .fired) }
  | leaveSet (hp : x.autoDeployScan = .deploying (.updating .fired)) :
      ScanStep w x { x with
        descriptor := x.descriptor.leave, autoDeployScan := .deploying (.updating .returned) }
  | newScan {scanner} (hover : (w.fails || x.isOver scanner) = true)
      (hunder : x.isUnderWay scanner = false) : ScanStep w x (x.newScan scanner)
  | instanceEnds {reference} (hfails : w.fails = true) : ScanStep w x (x.instanceEnds reference)

omit [DecidableEq ρ] in
theorem eq_hold_of_enter {i : AutoScanner} {d d' : ApplicationDescriptor AutoScanner ρ}
    (h : d.enter i = some d') : d' = d.hold i := by
  rw [ApplicationDescriptor.enter] at h
  split at h
  · exact (Option.some.inj h).symm
  · cases h

theorem scanStep_of_status {d' : ApplicationDescriptor AutoScanner ρ} {p' : StatusScanPoint}
    (h : statusScan m .status answer x.descriptor x.statusScan = some (d', p'))
    (hallows : ∀ a host, answer = .probe a host →
      match m.probeState x.descriptor.applicationReference a host with
      | .ok new => w.reports x.isUp new = true
      | .error _ => w.fails = true) :
    ScanStep w x { x with descriptor := d', statusScan := p' } := by
  cases hp : x.statusScan with
  | reading p =>
    cases p with
    | entry =>
      rw [hp] at h
      obtain ⟨⟨d₁, p₁⟩, hget, heq⟩ := Option.map_eq_some_iff.mp h
      obtain ⟨d₂, hd, heq₂⟩ := Option.map_eq_some_iff.mp hget
      obtain ⟨rfl, rfl⟩ := Prod.mk.inj heq₂
      obtain ⟨rfl, rfl⟩ := Prod.mk.inj heq
      rw [eq_hold_of_enter hd]
      exact .enterStatus hp
    | locked =>
      rw [hp] at h
      obtain ⟨rfl, rfl⟩ := Prod.mk.inj (Option.some.inj h)
      exact .readStatus hp
    | read old =>
      rw [hp] at h
      obtain ⟨rfl, rfl⟩ := Prod.mk.inj (Option.some.inj h)
      exact .leaveStatus hp
    | returned old =>
      rw [hp] at h
      simp only [statusScan] at h
      split at h
      · next a host =>
        have hreports := hallows a host rfl
        split at h
        · next new hprobe =>
          rw [hprobe] at hreports
          obtain ⟨rfl, rfl⟩ := Prod.mk.inj (Option.some.inj h)
          exact .probe hp hreports (AbstractApplicationManager.probeState_ne hprobe).1
        · next e hprobe =>
          rw [hprobe] at hreports
          obtain ⟨rfl, rfl⟩ := Prod.mk.inj (Option.some.inj h)
          exact .probeFails hp hreports
      · cases h
  | updating old new p =>
    rw [hp] at h
    cases p with
    | entry =>
      simp only [statusScan, compareAndSetApplicationState] at h
      split at h
      · next hstate =>
        subst hstate
        obtain ⟨rfl, rfl⟩ := Prod.mk.inj (Option.some.inj h)
        exact .compareAndSwap hp
      · next hstate =>
        obtain ⟨rfl, rfl⟩ := Prod.mk.inj (Option.some.inj h)
        exact .skip hp hstate
    | swapped =>
      obtain ⟨rfl, rfl⟩ := Prod.mk.inj (Option.some.inj h)
      exact .fireStatus hp
    | returned b => cases h
  | thrown e =>
    rw [hp] at h
    cases h

theorem scanStep_of_autoDeploy {d' : ApplicationDescriptor AutoScanner ρ}
    {p' : AutoDeployScanPoint ρ}
    (h : autoDeployScan m .autoDeploy answer x.descriptor x.autoDeployScan = some (d', p'))
    (hallows : ∀ a e, answer = .deploy a → m.deploy a = .error e → w.fails = true) :
    ScanStep w x { x with descriptor := d', autoDeployScan := p' } := by
  cases hp : x.autoDeployScan with
  | reading p =>
    rw [hp] at h
    cases p with
    | entry =>
      obtain ⟨⟨d₁, p₁⟩, hget, heq⟩ := Option.map_eq_some_iff.mp h
      obtain ⟨d₂, hd, heq₂⟩ := Option.map_eq_some_iff.mp hget
      obtain ⟨rfl, rfl⟩ := Prod.mk.inj heq₂
      obtain ⟨rfl, rfl⟩ := Prod.mk.inj heq
      rw [eq_hold_of_enter hd]
      exact .enterDeploy hp
    | locked =>
      obtain ⟨rfl, rfl⟩ := Prod.mk.inj (Option.some.inj h)
      exact .readDeploy hp
    | read state =>
      obtain ⟨rfl, rfl⟩ := Prod.mk.inj (Option.some.inj h)
      exact .leaveDeploy hp
    | returned state =>
      obtain ⟨rfl, rfl⟩ := Prod.mk.inj (Option.some.inj h)
      exact .decide hp
  | deploying p =>
    rw [hp] at h
    obtain ⟨⟨d₁, p₁⟩, hdeploy, heq⟩ := Option.map_eq_some_iff.mp h
    obtain ⟨rfl, rfl⟩ := Prod.mk.inj heq
    cases p with
    | deploying =>
      simp only [deploy] at hdeploy
      split at hdeploy
      · next a =>
        split at hdeploy
        · next reference hr =>
          obtain ⟨rfl, rfl⟩ := Prod.mk.inj (Option.some.inj hdeploy)
          exact .create hp
        · next e he =>
          obtain ⟨rfl, rfl⟩ := Prod.mk.inj (Option.some.inj hdeploy)
          exact .deployFails hp (hallows a e rfl he)
      · cases hdeploy
    | created reference =>
      obtain ⟨rfl, rfl⟩ := Prod.mk.inj (Option.some.inj hdeploy)
      exact .store hp
    | updating p =>
      obtain ⟨⟨d₂, p₂⟩, hset, heq⟩ := Option.map_eq_some_iff.mp hdeploy
      obtain ⟨rfl, rfl⟩ := Prod.mk.inj heq
      cases p with
      | entry =>
        obtain ⟨d₃, hd, heq₃⟩ := Option.map_eq_some_iff.mp hset
        obtain ⟨rfl, rfl⟩ := Prod.mk.inj heq₃
        rw [eq_hold_of_enter hd]
        exact .enterSet hp
      | locked =>
        obtain ⟨rfl, rfl⟩ := Prod.mk.inj (Option.some.inj hset)
        exact .swap hp
      | swapped old =>
        obtain ⟨rfl, rfl⟩ := Prod.mk.inj (Option.some.inj hset)
        exact .fireDeploy hp
      | fired =>
        obtain ⟨rfl, rfl⟩ := Prod.mk.inj (Option.some.inj hset)
        exact .leaveSet hp
      | returned => cases hset
    | thrown e => cases hdeploy
  | skipped =>
    rw [hp] at h
    cases h

end Steps

section Machine

variable [Fintype δ] [DecidableEq δ] [DecidableEq ρ] {m : δ → AbstractApplicationManager ρ η}
  {w : World} {s t : δ → ScannedDescriptor ρ} {a : ScanAction δ ρ η} {d : δ}

omit [Fintype δ] [DecidableEq δ] [DecidableEq ρ] in
theorem newCycle_eq_newScan {x : ScannedDescriptor ρ} {scanner : AutoScanner}
    (h : x.isUnderWay scanner = false) : x.newCycle scanner = x.newScan scanner :=
  if_neg (ne_true_of_eq_false h)

omit [DecidableEq δ] in
/-- How a cycle ends in a world in which nothing is left behind. -/
theorem of_allows_newCycle {scanner : AutoScanner} (hw : w.leavesBehind = false)
    (hallows : w.allows m s (.newCycle scanner) = true) (d : δ) :
    (w.fails || (s d).isOver scanner) = true ∧ (s d).isUnderWay scanner = false := by
  have h := of_decide_eq_true hallows d
  rw [hw, Bool.false_or, Bool.and_eq_true, Bool.not_eq_true'] at h
  exact h

/-- The list is complete: a step leaves each descriptor as it is, or is one of them. -/
theorem scanStep_of_step (hw : w.leavesBehind = false) (hallows : w.allows m s a = true)
    (h : (scanMachine m).step s a = some t) : t d = s d ∨ ScanStep w (s d) (t d) := by
  cases a with
  | scan scanner e answer =>
    obtain ⟨x, hx, rfl⟩ := Option.map_eq_some_iff.mp h
    by_cases hde : d = e
    · subst hde
      right
      rw [Function.update_self]
      cases scanner with
      | status =>
        obtain ⟨⟨d', p'⟩, hscan, rfl⟩ := Option.map_eq_some_iff.mp hx
        refine scanStep_of_status hscan ?_
        rintro a host rfl
        rw [World.allows] at hallows
        split at hallows <;> simp_all
      | autoDeploy =>
        obtain ⟨⟨d', p'⟩, hscan, rfl⟩ := Option.map_eq_some_iff.mp hx
        refine scanStep_of_autoDeploy hscan ?_
        rintro a e rfl he
        rw [World.allows, he] at hallows
        exact hallows
    · exact .inl (Function.update_of_ne hde ..)
  | newCycle scanner =>
    obtain rfl := Option.some.inj h
    obtain ⟨hover, hunder⟩ := of_allows_newCycle hw hallows d
    right
    show ScanStep w (s d) ((s d).newCycle scanner)
    rw [newCycle_eq_newScan hunder]
    exact .newScan hover hunder
  | instanceEnds e reference =>
    obtain rfl := Option.some.inj h
    by_cases hde : d = e
    · subst hde
      right
      rw [Function.update_self]
      exact .instanceEnds hallows
    · exact .inl (Function.update_of_ne hde ..)
  | linger | instanceLeft => exact absurd (hw.symm.trans hallows) Bool.noConfusion

/-- In a calm world a cycle ends when its scans are over. -/
theorem isOver_of_newCycle {scanner : AutoScanner} (hallows : World.calm.allows m s a = true)
    (ha : a.isNewCycle scanner = true) (h : (scanMachine m).step s a = some t) :
    (∀ d, (s d).isOver scanner = true ∧ (s d).isUnderWay scanner = false) ∧
      ∀ d, t d = (s d).newScan scanner := by
  cases a with
  | newCycle kind =>
    obtain rfl : kind = scanner := of_decide_eq_true ha
    obtain rfl := Option.some.inj h
    have hends := of_allows_newCycle rfl hallows
    exact ⟨hends, fun d => newCycle_eq_newScan (hends d).2⟩
  | scan | linger | instanceEnds | instanceLeft => exact absurd ha Bool.noConfusion

end Machine

/-! ### What a scanner brings about

A status scan that is made in a calm world writes what it has found out, unless the state is not
the one any more that it has read; then somebody else has written in the meantime. What may be
written in either way is the *target* of a cycle. -/

namespace ScannedDescriptor

variable [DecidableEq ρ]

theorem isUp_iff {x : ScannedDescriptor ρ} :
    x.isUp = true ↔ ∃ r, x.descriptor.applicationReference = some r ∧ r ∈ x.descriptor.alive := by
  simp [isUp, Option.any_eq_true]

/-- The instance that a scan has deployed is alive. -/
def Founded (x : ScannedDescriptor ρ) : Prop :=
  match x.autoDeployScan with
  | .deploying (.created reference) => reference ∈ x.descriptor.alive
  | .deploying (.updating _) => x.isUp = true
  | _ => True

/-- The state is one that `ok` admits, given whether the instance is alive. -/
def Meets (ok : Bool → ApplicationState → Prop) (x : ScannedDescriptor ρ) : Prop :=
  ok x.isUp x.descriptor.state

/-- A status scan that is about to write has found out a state that `ok` admits. -/
def Current (ok : Bool → ApplicationState → Prop) (x : ScannedDescriptor ρ) : Prop :=
  match x.statusScan with
  | .updating _ new .entry => ok x.isUp new
  | _ => True

/-- From when a status scan has read the state, it is the same or one that `ok` admits; and that it
is when the scan has written. -/
def Tracks (ok : Bool → ApplicationState → Prop) (x : ScannedDescriptor ρ) : Prop :=
  match x.statusScan with
  | .reading (.read old) => x.descriptor.state = old ∨ x.Meets ok
  | .reading (.returned old) => x.descriptor.state = old ∨ x.Meets ok
  | .updating old _ .entry => x.descriptor.state = old ∨ x.Meets ok
  | .updating _ _ _ => x.Meets ok
  | .thrown _ => x.Meets ok
  | _ => True

end ScannedDescriptor

open ScannedDescriptor

section Targets

variable [DecidableEq ρ] {x y : ScannedDescriptor ρ} {w : World}
  {ok : Bool → ApplicationState → Prop} {I : ScannedDescriptor ρ → Prop}

/-- While `I` holds, whatever is found out and whatever is written is a state that `ok` admits. -/
structure Target (I : ScannedDescriptor ρ → Prop) (ok : Bool → ApplicationState → Prop) :
    Prop where
  keeps : ∀ x y, I x → ScanStep .calm x y → I y
  founded : ∀ x, I x → x.Founded
  mono : ∀ state, ok false state → ok true state
  probed : ∀ x, I x → ok x.isUp (if x.isUp then .running else .auth)
  deployed : ∀ x, I x → x.autoDeployScan = .deploying (.updating .locked) → ok x.isUp .deployed

theorem ScannedDescriptor.Founded.step (hx : x.Founded) (h : ScanStep .calm x y) : y.Founded := by
  cases h with
  | enterStatus | readStatus | leaveStatus | probe | compareAndSwap | skip | fireStatus => exact hx
  | enterDeploy | readDeploy | leaveDeploy => trivial
  | @decide state hp =>
    cases hdeployable : isDeployable state <;> simp [Founded]
  | create hp => exact List.mem_cons_self ..
  | store hp =>
    rw [Founded, hp] at hx
    exact isUp_iff.mpr ⟨_, rfl, hx⟩
  | enterSet hp | swap hp | fireDeploy hp | leaveSet hp =>
    rw [Founded, hp] at hx
    exact hx
  | @newScan scanner =>
    cases scanner with
    | status => exact hx
    | autoDeploy => trivial
  | probeFails _ hfails | deployFails _ hfails | instanceEnds hfails => cases hfails

/-- Nothing that is up goes down. -/
theorem ScanStep.isUp_mono (h : ScanStep .calm x y) (hx : x.Founded) (hup : x.isUp = true) :
    y.isUp = true := by
  cases h with
  | create =>
    obtain ⟨r, href, hr⟩ := isUp_iff.mp hup
    exact isUp_iff.mpr ⟨r, href, List.mem_cons_of_mem _ hr⟩
  | store hp =>
    rw [Founded, hp] at hx
    exact isUp_iff.mpr ⟨_, rfl, hx⟩
  | @newScan scanner => cases scanner <;> exact hup
  | probeFails _ hfails | deployFails _ hfails | instanceEnds hfails => cases hfails
  | _ => exact hup

theorem Target.ok_of_step (ht : Target I ok) (hI : I x) (h : ScanStep .calm x y)
    {state : ApplicationState} (hok : ok x.isUp state) : ok y.isUp state := by
  cases hx : x.isUp with
  | true =>
    rw [h.isUp_mono (ht.founded x hI) hx]
    rwa [hx] at hok
  | false =>
    rw [hx] at hok
    cases hy : y.isUp with
    | true => exact ht.mono state hok
    | false => exact hok

theorem ScannedDescriptor.Tracks.of_meets (h : x.Meets ok) : x.Tracks ok := by
  unfold Tracks
  split
  · exact .inr h
  · exact .inr h
  · exact .inr h
  · exact h
  · exact h
  · trivial

/-- A scan whose cycle may end has met the target. -/
theorem ScannedDescriptor.Tracks.meets (h : x.Tracks ok) (hover : x.isOver .status = true) :
    x.Meets ok := by
  replace hover : x.statusScan.isOver = true := hover
  rw [Tracks] at h
  cases hp : x.statusScan with
  | reading p =>
    rw [hp] at hover
    cases hover
  | updating old new p =>
    rw [hp] at h hover
    cases p with
    | entry | swapped => cases hover
    | returned b => exact h
  | thrown e =>
    rw [hp] at h
    exact h

/-- A step that neither writes nor moves the status scan. -/
theorem Target.tracks_congr (ht : Target I ok) (hI : I x) (h : ScanStep .calm x y)
    (hstate : y.descriptor.state = x.descriptor.state) (hscan : y.statusScan = x.statusScan)
    (hx : x.Tracks ok) : y.Tracks ok := by
  have hmeets (hm : x.Meets ok) : y.Meets ok := by
    rw [Meets, hstate]
    exact ht.ok_of_step hI h hm
  rw [Tracks, hscan]
  rw [Tracks] at hx
  split at hx
  · rw [hstate]; exact hx.imp_right hmeets
  · rw [hstate]; exact hx.imp_right hmeets
  · rw [hstate]; exact hx.imp_right hmeets
  · exact hmeets hx
  · exact hmeets hx
  · trivial

theorem Target.current_step (ht : Target I ok) (hI : I x) (h : ScanStep .calm x y)
    (hx : x.Current ok) : y.Current ok := by
  have hcongr (hscan : y.statusScan = x.statusScan) : y.Current ok := by
    rw [Current, hscan]
    rw [Current] at hx
    split at hx
    · exact ht.ok_of_step hI h hx
    · trivial
  cases h with
  | enterStatus | readStatus | leaveStatus | compareAndSwap | skip | fireStatus => trivial
  | @probe old new called hp hreports =>
    obtain rfl := of_decide_eq_true hreports
    exact ht.probed x hI
  | @newScan scanner =>
    cases scanner with
    | status => trivial
    | autoDeploy => exact hcongr rfl
  | probeFails _ hfails | deployFails _ hfails | instanceEnds hfails => cases hfails
  | _ => exact hcongr rfl

/-- A status that meets the target goes on meeting it. -/
theorem Target.meets_step (ht : Target I ok) (hI : I x) (hc : x.Current ok)
    (h : ScanStep .calm x y) (hx : x.Meets ok) : y.Meets ok := by
  have hcongr (hstate : y.descriptor.state = x.descriptor.state) : y.Meets ok := by
    rw [Meets, hstate]
    exact ht.ok_of_step hI h hx
  cases h with
  | compareAndSwap hp =>
    rw [Current, hp] at hc
    exact hc
  | swap hp => exact ht.deployed x hI hp
  | @newScan scanner => cases scanner <;> exact hcongr rfl
  | probeFails _ hfails | deployFails _ hfails | instanceEnds hfails => cases hfails
  | _ => exact hcongr rfl

theorem Target.tracks_step (ht : Target I ok) (hI : I x) (hc : x.Current ok)
    (h : ScanStep .calm x y) (hx : x.Tracks ok) : y.Tracks ok := by
  have hcongr := ht.tracks_congr hI h
  cases h with
  | enterStatus => trivial
  | readStatus => exact .inl rfl
  | leaveStatus hp | probe hp =>
    rw [Tracks, hp] at hx
    exact hx
  | compareAndSwap hp =>
    rw [Current, hp] at hc
    exact hc
  | skip hp hstate =>
    rw [Tracks, hp] at hx
    exact hx.resolve_left hstate
  | fireStatus hp =>
    rw [Tracks, hp] at hx
    exact hx
  | swap hp => exact .of_meets (ht.deployed x hI hp)
  | @newScan scanner =>
    cases scanner with
    | status => trivial
    | autoDeploy => exact hcongr rfl rfl hx
  | probeFails _ hfails | deployFails _ hfails | instanceEnds hfails => cases hfails
  | _ => exact hcongr rfl rfl hx

end Targets

/-! ### What the cycles of a scanner bring about -/

section Rounds

variable [Fintype δ] [DecidableEq δ] [DecidableEq ρ] {m : δ → AbstractApplicationManager ρ η}
  {s t : δ → ScannedDescriptor ρ} {as : List (ScanAction δ ρ η)} {I J : ScannedDescriptor ρ → Prop}
  {ok : Bool → ApplicationState → Prop}

/-- A run in a calm world, with its actions. -/
abbrev CalmTrace (m : δ → AbstractApplicationManager ρ η) :=
  (scanMachine m).Trace fun s a => World.calm.allows m s a = true

/-- What each descriptor keeps, the network keeps. -/
theorem keeps_of_scanStep (h : ∀ x y, I x → ScanStep .calm x y → I y) :
    (scanMachine m).Keeps (fun s a => World.calm.allows m s a = true) fun s => ∀ d, I (s d) := by
  intro s a t hs ha hst d
  obtain heq | hstep := scanStep_of_step (d := d) rfl ha hst
  · rw [heq]
    exact hs d
  · exact h (s d) (t d) (hs d) hstep

/-- What a new scan brings about, from `I`. -/
theorem CalmTrace.establish {k : ℕ} (scanner : AutoScanner)
    (hI : ∀ x y, I x → ScanStep .calm x y → I y)
    (hJ : ∀ x, I x → x.isOver scanner = true → x.isUnderWay scanner = false →
      J (x.newScan scanner))
    (h : CalmTrace m s as t) (hs : ∀ d, I (s d))
    (hk : k + 1 ≤ as.countP (ScanAction.isNewCycle scanner)) :
    ∃ u bs, CalmTrace m u bs t ∧ k ≤ bs.countP (ScanAction.isNewCycle scanner) ∧
      ∀ d, J (u d) := by
  refine Machine.Trace.establish (keeps_of_scanStep hI) (fun s a t hs ha hq hst d => ?_) h hs hk
  obtain ⟨hends, ht⟩ := isOver_of_newCycle ha hq hst
  rw [ht d]
  exact hJ (s d) (hs d) (hends d).1 (hends d).2

theorem CalmTrace.keeps (hI : ∀ x y, I x → ScanStep .calm x y → I y) (h : CalmTrace m s as t)
    (hs : ∀ d, I (s d)) : ∀ d, I (t d) :=
  (keeps_of_scanStep hI).runOf h.runOf hs

/-- **Two cycles of the status scanner** bring every state to the target. -/
theorem Target.meets_of_trace (ht : Target I ok) (h : CalmTrace m s as t) (hs : ∀ d, I (s d))
    (hk : 2 ≤ as.countP (ScanAction.isNewCycle .status)) :
    ∀ d, I (t d) ∧ (t d).Current ok ∧ (t d).Meets ok := by
  let T (x : ScannedDescriptor ρ) := I x ∧ x.Current ok ∧ x.Tracks ok
  let K (x : ScannedDescriptor ρ) := I x ∧ x.Current ok ∧ x.Meets ok
  have hT : ∀ x y, T x → ScanStep .calm x y → T y := fun x y hx hstep =>
    ⟨ht.keeps x y hx.1 hstep, ht.current_step hx.1 hstep hx.2.1,
      ht.tracks_step hx.1 hx.2.1 hstep hx.2.2⟩
  have hK : ∀ x y, K x → ScanStep .calm x y → K y := fun x y hx hstep =>
    ⟨ht.keeps x y hx.1 hstep, ht.current_step hx.1 hstep hx.2.1,
      ht.meets_step hx.1 hx.2.1 hstep hx.2.2⟩
  -- A scan of the first cycle may have begun before.
  obtain ⟨u, bs, hu, hk, hTu⟩ := h.establish .status (J := T) ht.keeps
    (fun x hx hover hunder => ⟨ht.keeps x _ hx (.newScan hover hunder), trivial, trivial⟩) hs hk
  obtain ⟨v, cs, hv, -, hKv⟩ := hu.establish .status (J := K) hT
    (fun x hx hover hunder =>
      ⟨ht.keeps x _ hx.1 (.newScan hover hunder), trivial, hx.2.2.meets hover⟩) hTu hk
  exact hv.keeps hK hKv

end Rounds

/-! ### The stages of healing -/

/-- Whether a scan may deploy, or write `DEPLOYED`. -/
def AutoDeployScanPoint.mayDeploy : AutoDeployScanPoint ρ → Bool
  | reading (.read state) | reading (.returned state) => isDeployable state
  | deploying .deploying | deploying (.created _) => true
  | deploying (.updating .entry) | deploying (.updating .locked) => true
  | _ => false

/-- An application that is running, is known to be, and is left alone. -/
structure Healed [DecidableEq ρ] (x : ScannedDescriptor ρ) : Prop where
  running : x.descriptor.state = .running
  isUp : x.isUp = true
  idle : x.autoDeployScan.mayDeploy = false

namespace ScannedDescriptor

variable [DecidableEq ρ]

/-- The instance is alive, or the auto-deploy scanner will deploy one. -/
def upOrAuth (up : Bool) (state : ApplicationState) : Prop := up = true ∨ state = .auth

/-- The state says that there is an application. -/
def isKnown (_ : Bool) (state : ApplicationState) : Prop := state = .running ∨ state = .deployed

/-- The state says that the application runs. -/
def isRunning (_ : Bool) (state : ApplicationState) : Prop := state = .running

/-- The instance is alive, unless the scan is going to deploy one. -/
def Deploys (x : ScannedDescriptor ρ) : Prop :=
  match x.autoDeployScan with
  | .reading (.read state) => x.isUp = true ∨ state = .auth
  | .reading (.returned state) => x.isUp = true ∨ state = .auth
  | .deploying (.updating _) => x.isUp = true
  | .deploying (.thrown _) => x.isUp = true
  | .skipped => x.isUp = true
  | _ => True

/-- Every status scan finds the instance alive, or `AUTH`. -/
structure Ready (x : ScannedDescriptor ρ) : Prop where
  founded : x.Founded
  current : x.Current upOrAuth
  meets : x.Meets upOrAuth

/-- The instance of the descriptor has been deployed and is alive. -/
structure Up (x : ScannedDescriptor ρ) : Prop where
  founded : x.Founded
  isUp : x.isUp = true

/-- The instance is up, and the state and the scans under way agree that there is one. -/
structure Known (x : ScannedDescriptor ρ) : Prop where
  up : x.Up
  current : x.Current isKnown
  meets : x.Meets isKnown

/-- The instance is known, and the deployment scan under way does not deploy another. -/
structure LeftAlone (x : ScannedDescriptor ρ) : Prop where
  known : x.Known
  idle : x.autoDeployScan.mayDeploy = false

/-- The instance is left alone, and the state and the scans under way agree that it runs. -/
structure AtRest (x : ScannedDescriptor ρ) : Prop where
  leftAlone : x.LeftAlone
  current : x.Current isRunning
  meets : x.Meets isRunning

end ScannedDescriptor

section Stages

variable [DecidableEq ρ] {x y : ScannedDescriptor ρ}

theorem target_upOrAuth : Target (ρ := ρ) Founded upOrAuth where
  keeps _ _ := Founded.step
  founded _ hx := hx
  mono _ h := .inl rfl
  probed x _ := by
    cases x.isUp with
    | true => exact .inl rfl
    | false => exact .inr rfl
  deployed x hx hp := by
    rw [Founded, hp] at hx
    exact .inl hx

theorem ScannedDescriptor.Ready.step (hx : x.Ready) (h : ScanStep .calm x y) : y.Ready :=
  ⟨hx.founded.step h, target_upOrAuth.current_step hx.founded h hx.current,
    target_upOrAuth.meets_step hx.founded hx.current h hx.meets⟩

theorem ScannedDescriptor.Up.step (hx : x.Up) (h : ScanStep .calm x y) : y.Up :=
  ⟨hx.founded.step h, h.isUp_mono hx.founded hx.isUp⟩

theorem target_isKnown : Target (ρ := ρ) Up isKnown where
  keeps _ _ := Up.step
  founded _ hx := hx.founded
  mono _ h := h
  probed x hx := by
    rw [hx.isUp]
    exact .inl rfl
  deployed _ _ _ := .inr rfl

theorem ScannedDescriptor.Known.step (hx : x.Known) (h : ScanStep .calm x y) : y.Known :=
  ⟨hx.up.step h, target_isKnown.current_step hx.up h hx.current,
    target_isKnown.meets_step hx.up hx.current h hx.meets⟩

theorem ScannedDescriptor.LeftAlone.step (hx : x.LeftAlone) (h : ScanStep .calm x y) :
    y.LeftAlone := by
  refine ⟨hx.known.step h, ?_⟩
  have hidle := hx.idle
  cases h with
  | enterStatus | readStatus | leaveStatus | probe | compareAndSwap | skip | fireStatus =>
    exact hidle
  | readDeploy =>
    show isDeployable x.descriptor.state = false
    obtain h | h := hx.known.meets
    · rw [h]; rfl
    · rw [h]; rfl
  | leaveDeploy hp =>
    rw [hp] at hidle
    exact hidle
  | decide hp =>
    rw [hp] at hidle
    replace hidle : isDeployable _ = false := hidle
    rw [hidle]
    rfl
  | create hp | store hp | enterSet hp | swap hp =>
    rw [hp] at hidle
    cases hidle
  | enterDeploy | fireDeploy | leaveSet => rfl
  | @newScan scanner =>
    cases scanner with
    | status => exact hidle
    | autoDeploy => rfl
  | probeFails _ hfails | deployFails _ hfails | instanceEnds hfails => cases hfails

theorem target_isRunning : Target (ρ := ρ) LeftAlone isRunning where
  keeps _ _ := LeftAlone.step
  founded _ hx := hx.known.up.founded
  mono _ h := h
  probed x hx := by
    rw [hx.known.up.isUp]
    rfl
  deployed x hx hp := by
    have hidle := hx.idle
    rw [hp] at hidle
    cases hidle

theorem ScannedDescriptor.AtRest.step (hx : x.AtRest) (h : ScanStep .calm x y) : y.AtRest :=
  ⟨hx.leftAlone.step h, target_isRunning.current_step hx.leftAlone h hx.current,
    target_isRunning.meets_step hx.leftAlone hx.current h hx.meets⟩

theorem ScannedDescriptor.AtRest.healed (hx : x.AtRest) : Healed x :=
  ⟨hx.meets, hx.leftAlone.known.up.isUp, hx.leftAlone.idle⟩

/-- A scan whose cycle may end has found the instance alive or has deployed one. -/
theorem ScannedDescriptor.Deploys.isUp_of_isOver (hx : x.Deploys)
    (hover : x.isOver .autoDeploy = true) : x.isUp = true := by
  replace hover : x.autoDeployScan.isOver = true := hover
  rw [Deploys] at hx
  cases hp : x.autoDeployScan with
  | reading p =>
    rw [hp] at hover
    cases hover
  | deploying p =>
    rw [hp] at hx hover
    cases p with
    | deploying | created => cases hover
    | updating p => exact hx
    | thrown e => exact hx
  | skipped =>
    rw [hp] at hx
    exact hx

theorem ScannedDescriptor.Deploys.step (hx : x.Deploys) (hready : x.Ready)
    (h : ScanStep .calm x y) : y.Deploys := by
  have hup := h.isUp_mono hready.founded
  have hcongr (hscan : y.autoDeployScan = x.autoDeployScan) : y.Deploys := by
    rw [Deploys, hscan]
    rw [Deploys] at hx
    split at hx
    · exact hx.imp_left hup
    · exact hx.imp_left hup
    · exact hup hx
    · exact hup hx
    · exact hup hx
    · trivial
  have hfounded := hready.founded.step h
  cases h with
  | enterDeploy | create => trivial
  | readDeploy => exact hready.meets
  | leaveDeploy hp =>
    rw [Deploys, hp] at hx
    exact hx
  | @decide state hp =>
    rw [Deploys, hp] at hx
    cases hdeployable : isDeployable state with
    | true => trivial
    | false =>
      obtain h | rfl := hx
      · exact h
      · cases hdeployable
  | store | enterSet | swap | fireDeploy | leaveSet => exact hfounded
  | @newScan scanner =>
    cases scanner with
    | status => exact hcongr rfl
    | autoDeploy => trivial
  | probeFails _ hfails | deployFails _ hfails | instanceEnds hfails => cases hfails
  | _ => exact hcongr rfl

end Stages

section Healing

variable [Fintype δ] [DecidableEq δ] [DecidableEq ρ] {m : δ → AbstractApplicationManager ρ η}
  {s t : δ → ScannedDescriptor ρ} {as : List (ScanAction δ ρ η)}

/-- A round of a run in a calm world: each scanner ends a cycle that it has begun in the round. -/
abbrev CalmRounds (m : δ → AbstractApplicationManager ρ η) (n : ℕ) :=
  (scanMachine m).RoundsOf (fun s a => World.calm.allows m s a = true) ScanAction.isNewCycle 2 n

theorem founded_of_trace (h : CalmTrace m s as t)
    (hk : 2 ≤ as.countP (ScanAction.isNewCycle .autoDeploy)) : ∀ d, (t d).Founded := by
  obtain ⟨u, bs, hu, -, hfounded⟩ := h.establish .autoDeploy (I := fun _ => True) (J := Founded)
    (fun _ _ _ _ => trivial) (fun _ _ _ _ => trivial) (fun _ => trivial) hk
  exact hu.keeps (fun _ _ => Founded.step) hfounded

/-- **Two cycles of the auto-deploy scanner** start what is not there. -/
theorem up_of_trace (h : CalmTrace m s as t) (hs : ∀ d, (s d).Ready)
    (hk : 2 ≤ as.countP (ScanAction.isNewCycle .autoDeploy)) : ∀ d, (t d).Up := by
  let T (x : ScannedDescriptor ρ) := x.Ready ∧ x.Deploys
  obtain ⟨u, bs, hu, hk, hTu⟩ := h.establish .autoDeploy (J := T) (fun _ _ => Ready.step)
    (fun x hx hover hunder => ⟨hx.step (.newScan hover hunder), trivial⟩) hs hk
  obtain ⟨v, cs, hv, -, hup⟩ := hu.establish .autoDeploy (J := Up)
    (fun x y hx hstep => ⟨hx.1.step hstep, hx.2.step hx.1 hstep⟩)
    (fun x hx hover hunder =>
      ⟨hx.1.founded.step (.newScan hover hunder), hx.2.isUp_of_isOver hover⟩) hTu hk
  exact hv.keeps (fun _ _ => Up.step) hup

theorem leftAlone_of_trace (h : CalmTrace m s as t) (hs : ∀ d, (s d).Known)
    (hk : 2 ≤ as.countP (ScanAction.isNewCycle .autoDeploy)) : ∀ d, (t d).LeftAlone := by
  obtain ⟨u, bs, hu, -, hleft⟩ := h.establish .autoDeploy (J := LeftAlone) (fun _ _ => Known.step)
    (fun x hx hover hunder => ⟨hx.step (.newScan hover hunder), rfl⟩) hs hk
  exact hu.keeps (fun _ _ => LeftAlone.step) hleft

/-- **Automatic deployment heals the network.** From whatever state the descriptors and the scans
are in, a calm network, whose cycles end when their scans are over, has every application running
after six rounds, with an instance that is alive; and as long as it is calm it stays so, and no
application is deployed again. -/
theorem healed_of_rounds (h : CalmRounds m 6 s t) : ∀ u,
    (scanMachine m).RunOf (fun s a => World.calm.allows m s a = true) t u → ∀ d, Healed (u d) := by
  obtain ⟨s₁, ⟨as₁, h₁, hk₁⟩, s₂, ⟨as₂, h₂, hk₂⟩, s₃, ⟨as₃, h₃, hk₃⟩, s₄, ⟨as₄, h₄, hk₄⟩,
    s₅, ⟨as₅, h₅, hk₅⟩, s₆, ⟨as₆, h₆, hk₆⟩, rfl⟩ := h
  have hfounded : ∀ d, (s₁ d).Founded := founded_of_trace h₁ (hk₁ .autoDeploy)
  have hready : ∀ d, (s₂ d).Ready := fun d =>
    let ⟨hI, hc, hm⟩ := target_upOrAuth.meets_of_trace h₂ hfounded (hk₂ .status) d
    ⟨hI, hc, hm⟩
  have hup : ∀ d, (s₃ d).Up := up_of_trace h₃ hready (hk₃ .autoDeploy)
  have hknown : ∀ d, (s₄ d).Known := fun d =>
    let ⟨hI, hc, hm⟩ := target_isKnown.meets_of_trace h₄ hup (hk₄ .status) d
    ⟨hI, hc, hm⟩
  have hleft : ∀ d, (s₅ d).LeftAlone := leftAlone_of_trace h₅ hknown (hk₅ .autoDeploy)
  have hrest : ∀ d, (s₆ d).AtRest := fun d =>
    let ⟨hI, hc, hm⟩ := target_isRunning.meets_of_trace h₆ hleft (hk₆ .status) d
    ⟨hI, hc, hm⟩
  intro u hu d
  exact ((keeps_of_scanStep fun _ _ => AtRest.step).runOf hu hrest d).healed

end Healing

/-- A manager whose applications answer once they have been deployed. -/
def answering : AbstractApplicationManager ℕ Unit where
  deploy _ := .ok 0
  kill _ _ := .ok ()
  attemptApplicationCall reference _ :=
    if reference.isSome then .ok () else .error (.thrown .exception)

/-- A cycle of each scanner, whose deployment takes `n` steps. -/
def cycles (n : ℕ) : List (ScanAction Unit ℕ Unit) :=
  List.replicate 6 (.scan .status () (.probe () (some ⟨true, .ok true, .ok ()⟩))) ++
    [.newCycle .status] ++ List.replicate n (.scan .autoDeploy () (.deploy ())) ++
    [.newCycle .autoDeploy]

theorem healed_of_rounds_new : ∃ t, CalmRounds (fun _ => answering) 6
    (fun _ => .new) t ∧ Healed (t ()) := by
  obtain ⟨t, ht⟩ := (scanMachine fun _ : Unit => answering).exists_roundsOf_of_execOf
    (fun s a => World.calm.allows (fun _ => answering) s a = true) ScanAction.isNewCycle 2
    ((cycles 10 ++ cycles 4) :: List.replicate 5 (cycles 4 ++ cycles 4))
    (fun _ => .new) (fun as has scanner => by revert as; cases scanner <;> decide) (by decide)
  exact ⟨t, ht, healed_of_rounds ht t .refl ()⟩

/-! ### One instance

The two scanners do not wait for each other: a status scan may be about to write `AUTH` while the
instance is deployed. But it writes only if it finds the state that it has read, and `DEPLOYED` has
been written over that. -/

namespace AutoDeployScanPoint

/-- The scan has read `AUTH`, and no instance has been deployed since. -/
def isBefore : AutoDeployScanPoint ρ → Bool
  | reading (.read state) | reading (.returned state) => isDeployable state
  | deploying .deploying => true
  | _ => false

/-- An instance has been deployed, and `DEPLOYED` has not been written. -/
def isBetween : AutoDeployScanPoint ρ → Bool
  | deploying (.created _) | deploying (.updating .entry) | deploying (.updating .locked) => true
  | _ => false

end AutoDeployScanPoint

/-- The state that a scan has read, until it has written. -/
def StatusScanPoint.hasRead : StatusScanPoint → Option ApplicationState
  | reading (.read old) | reading (.returned old) => some old
  | updating old _ .entry => some old
  | _ => none

/-- What is promised of the instances of an application. -/
structure SoleInstance (x : ScannedDescriptor ρ) : Prop where
  single : x.descriptor.alive.length ≤ 1
  /-- The descriptor refers to the instance, or is about to. -/
  reference : ∀ r ∈ x.descriptor.alive, x.descriptor.applicationReference = some r ∨
    x.autoDeployScan = .deploying (.created r)
  /-- There is none when one is deployed. -/
  deploying : x.autoDeployScan = .deploying .deploying → x.descriptor.alive = []

/-- The invariant: nothing is alive where `AUTH` has been read, or may be. -/
structure InScan (x : ScannedDescriptor ρ) : Prop where
  single : x.descriptor.alive.length ≤ 1
  created : ∀ r, x.autoDeployScan = .deploying (.created r) → ∀ r' ∈ x.descriptor.alive, r' = r
  reference : (∀ r, x.autoDeployScan ≠ .deploying (.created r)) →
    ∀ r ∈ x.descriptor.alive, x.descriptor.applicationReference = some r
  before : x.autoDeployScan.isBefore = true → x.descriptor.alive = []
  auth : x.autoDeployScan.isBetween = false → x.descriptor.state = .auth → x.descriptor.alive = []
  pending : ∀ old, x.statusScan = .updating old .auth .entry → x.autoDeployScan.isBetween = false →
    x.descriptor.state = old → x.descriptor.alive = []
  notDeployed : (x.autoDeployScan.isBefore || x.autoDeployScan.isBetween) = true →
    x.descriptor.state ≠ .deployed
  reported : ∀ old new p, x.statusScan = .updating old new p → new ≠ .deployed
  readDeployed : x.statusScan.hasRead = some .deployed → x.descriptor.state = .deployed

section Instances

variable {x y : ScannedDescriptor ρ}

namespace InScan

theorem soleInstance (hx : InScan x) : SoleInstance x := by
  refine ⟨hx.single, fun r hr => ?_, fun hp => hx.before (by rw [hp]; rfl)⟩
  by_cases h : ∃ r', x.autoDeployScan = .deploying (.created r')
  · obtain ⟨r', hp⟩ := h
    right
    rw [hp, hx.created r' hp r hr]
  · exact .inl (hx.reference (fun r' hp => h ⟨r', hp⟩) r hr)

/-- A step of the status scan that does not write. -/
theorem of_status (hx : InScan x) (hdeploy : y.autoDeployScan = x.autoDeployScan)
    (halive : y.descriptor.alive = x.descriptor.alive)
    (href : y.descriptor.applicationReference = x.descriptor.applicationReference)
    (hstate : y.descriptor.state = x.descriptor.state)
    (hpending : ∀ old, y.statusScan = .updating old .auth .entry →
      x.autoDeployScan.isBetween = false → x.descriptor.state = old → x.descriptor.alive = [])
    (hreported : ∀ old new p, y.statusScan = .updating old new p → new ≠ .deployed)
    (hread : y.statusScan.hasRead = some .deployed → x.descriptor.state = .deployed) :
    InScan y := by
  refine ⟨?_, ?_, ?_, ?_, ?_, ?_, ?_, hreported, ?_⟩
  · rw [halive]; exact hx.single
  · rw [hdeploy, halive]; exact hx.created
  · rw [hdeploy, halive, href]; exact hx.reference
  · rw [hdeploy, halive]; exact hx.before
  · rw [hdeploy, halive, hstate]; exact hx.auth
  · rw [hdeploy, halive, hstate]; exact hpending
  · rw [hdeploy, hstate]; exact hx.notDeployed
  · rw [hstate]; exact hread

/-- A step of the auto-deploy scan that neither deploys, stores nor writes. -/
theorem of_autoDeploy {p : AutoDeployScanPoint ρ} {d : ApplicationDescriptor AutoScanner ρ}
    (hx : InScan x) (hcreated : ∀ r, x.autoDeployScan ≠ .deploying (.created r))
    (hcreated' : ∀ r, p ≠ .deploying (.created r)) (halive : d.alive = x.descriptor.alive)
    (href : d.applicationReference = x.descriptor.applicationReference)
    (hstate : d.state = x.descriptor.state)
    (hbefore : p.isBefore = true →
      x.descriptor.alive = [] ∧ x.descriptor.state ≠ .deployed)
    (hbetween : p.isBetween = x.autoDeployScan.isBetween) :
    InScan { x with descriptor := d, autoDeployScan := p } := by
  refine ⟨?_, fun r hp => absurd hp (hcreated' r), fun _ => ?_, fun h => ?_, ?_, ?_, fun h => ?_,
    hx.reported, ?_⟩
  · rw [halive]; exact hx.single
  · rw [halive, href]; exact hx.reference hcreated
  · rw [halive]; exact (hbefore h).1
  · rw [hbetween, halive, hstate]; exact hx.auth
  · rw [hbetween, halive, hstate]; exact hx.pending
  · rw [hstate]
    obtain h | h := Bool.or_eq_true_iff.mp h
    · exact (hbefore h).2
    · exact hx.notDeployed (Bool.or_eq_true_iff.mpr (.inr (hbetween ▸ h)))
  · rw [hstate]; exact hx.readDeployed

theorem eq_auth_of_isDeployable {state : ApplicationState} (h : isDeployable state = true) :
    state = .auth := of_decide_eq_true h

theorem readStatus (hx : InScan x) : InScan { x with
    descriptor := x.descriptor.record (.read .status x.descriptor.state)
    statusScan := .reading (.read x.descriptor.state) } :=
  hx.of_status rfl rfl rfl rfl nofun nofun Option.some.inj

theorem leaveStatus {old : ApplicationState} (hx : InScan x)
    (hp : x.statusScan = .reading (.read old)) : InScan { x with
      descriptor := x.descriptor.leave, statusScan := .reading (.returned old) } := by
  refine hx.of_status rfl rfl rfl rfl nofun nofun fun h => hx.readDeployed ?_
  rw [hp]
  exact h

/-- A probe that reports `AUTH` has found nothing alive, unless an instance has been deployed that
is not known yet. -/
theorem probe [DecidableEq ρ] {old new : ApplicationState} {called : Bool} (hx : InScan x)
    (hp : x.statusScan = .reading (.returned old))
    (hreports : World.truthful.reports x.isUp new = true) (hne : new ≠ .deployed) :
    InScan { x with
      descriptor := x.descriptor.record (.probed .status called new)
      statusScan := .updating old new .entry } := by
  refine hx.of_status rfl rfl rfl rfl ?_ ?_ fun h => hx.readDeployed ?_
  · intro old' hupdating hbetween hstate
    obtain ⟨-, rfl, -⟩ := StatusScanPoint.updating.inj hupdating
    -- The descriptor would refer to whatever is alive, and the probe would have found it.
    refine List.eq_nil_iff_forall_not_mem.mpr fun r hr => ?_
    have hup : x.isUp = true := by
      refine isUp_iff.mpr ⟨r, hx.reference (fun r' hp' => ?_) r hr, hr⟩
      rw [hp'] at hbetween
      cases hbetween
    rw [World.truthful, hup] at hreports
    cases hreports
  · intro old' new' p hupdating
    obtain ⟨-, rfl, -⟩ := StatusScanPoint.updating.inj hupdating
    exact hne
  · rw [hp]
    exact h

theorem compareAndSwap {new : ApplicationState} (hx : InScan x)
    (hp : x.statusScan = .updating x.descriptor.state new .entry) : InScan { x with
      descriptor := x.descriptor.swap .status new
      statusScan := .updating x.descriptor.state new .swapped } := by
  have hne : new ≠ .deployed := hx.reported _ _ _ hp
  refine ⟨hx.single, hx.created, hx.reference, hx.before, fun hbetween hauth => ?_,
    fun old hupdating => absurd (StatusScanPoint.updating.inj hupdating).2.2 nofun,
    fun _ => hne, fun old' new' p hupdating => ?_, nofun⟩
  · obtain rfl : new = .auth := hauth
    exact hx.pending _ hp hbetween rfl
  · obtain ⟨-, rfl, -⟩ := StatusScanPoint.updating.inj hupdating
    exact hne

/-- What follows the compare-and-swap, or its failure. -/
theorem afterSwap {old new : ApplicationState} {p p' : CasPoint}
    {d : ApplicationDescriptor AutoScanner ρ} (hx : InScan x)
    (hp : x.statusScan = .updating old new p) (halive : d.alive = x.descriptor.alive)
    (href : d.applicationReference = x.descriptor.applicationReference)
    (hstate : d.state = x.descriptor.state) (hne : p' ≠ .entry) :
    InScan { x with descriptor := d, statusScan := .updating old new p' } := by
  refine hx.of_status rfl halive href hstate (fun old' hupdating => ?_)
    (fun old' new' q hupdating => ?_) ?_
  · exact absurd (StatusScanPoint.updating.inj hupdating).2.2 hne
  · obtain ⟨-, rfl, -⟩ := StatusScanPoint.updating.inj hupdating
    exact hx.reported _ _ _ hp
  · cases p' with
    | entry => exact absurd rfl hne
    | swapped | returned => nofun

theorem readDeploy (hx : InScan x) (hp : x.autoDeployScan = .reading .locked) : InScan { x with
    descriptor := x.descriptor.record (.read .autoDeploy x.descriptor.state)
    autoDeployScan := .reading (.read x.descriptor.state) } := by
  refine hx.of_autoDeploy (by rw [hp]; nofun) nofun rfl rfl rfl (fun h => ?_) (by rw [hp]; rfl)
  have hauth := eq_auth_of_isDeployable h
  refine ⟨hx.auth (by rw [hp]; rfl) hauth, ?_⟩
  rw [hauth]
  exact ApplicationState.noConfusion

/-- A step of a scan that has read `AUTH` and has not deployed. -/
theorem stillBefore {p : AutoDeployScanPoint ρ} {d : ApplicationDescriptor AutoScanner ρ}
    (hx : InScan x) (hcreated : ∀ r, x.autoDeployScan ≠ .deploying (.created r))
    (hcreated' : ∀ r, p ≠ .deploying (.created r)) (halive : d.alive = x.descriptor.alive)
    (href : d.applicationReference = x.descriptor.applicationReference)
    (hstate : d.state = x.descriptor.state)
    (hbefore : p.isBefore = true → x.autoDeployScan.isBefore = true)
    (hbetween : p.isBetween = x.autoDeployScan.isBetween) :
    InScan { x with descriptor := d, autoDeployScan := p } :=
  hx.of_autoDeploy hcreated hcreated' halive href hstate
    (fun h => ⟨hx.before (hbefore h),
      hx.notDeployed (Bool.or_eq_true_iff.mpr (.inl (hbefore h)))⟩) hbetween

theorem decide {state : ApplicationState} (hx : InScan x)
    (hp : x.autoDeployScan = .reading (.returned state)) : InScan { x with
      autoDeployScan := if isDeployable state then .deploying .deploying else .skipped } := by
  cases hdeployable : isDeployable state with
  | true =>
    exact hx.stillBefore (by rw [hp]; nofun) nofun rfl rfl rfl
      (fun _ => by rw [hp]; exact hdeployable) (by rw [hp]; rfl)
  | false =>
    exact hx.of_autoDeploy (by rw [hp]; nofun) nofun rfl rfl rfl nofun (by rw [hp]; rfl)

theorem create {reference : ρ} (hx : InScan x) (hp : x.autoDeployScan = .deploying .deploying) :
    InScan { x with
      descriptor := x.descriptor.create .autoDeploy reference
      autoDeployScan := .deploying (.created reference) } := by
  have hnone : x.descriptor.alive = [] := hx.before (by rw [hp]; rfl)
  have hsingle : ∀ r ∈ reference :: x.descriptor.alive, r = reference := by
    rw [hnone]
    exact fun r hr => List.mem_singleton.mp hr
  refine ⟨?_, fun r hr => ?_, fun h => absurd rfl (h reference), nofun, nofun, nofun,
    fun _ => hx.notDeployed (by rw [hp]; rfl), hx.reported, hx.readDeployed⟩
  · show (reference :: x.descriptor.alive).length ≤ 1
    rw [hnone]
    exact Nat.le_refl 1
  · obtain rfl : reference = r := by
      cases hr
      rfl
    exact hsingle

theorem store {reference : ρ} (hx : InScan x)
    (hp : x.autoDeployScan = .deploying (.created reference)) : InScan { x with
      descriptor := x.descriptor.setApplicationReference .autoDeploy reference
      autoDeployScan := .deploying (.updating .entry) } := by
  refine ⟨hx.single, nofun, fun _ r hr => ?_, nofun, nofun, nofun,
    fun _ => hx.notDeployed (by rw [hp]; rfl), hx.reported, hx.readDeployed⟩
  rw [hx.created reference hp r hr]
  rfl

theorem swap (hx : InScan x) (hp : x.autoDeployScan = .deploying (.updating .locked)) :
    InScan { x with
      descriptor := x.descriptor.swap .autoDeploy .deployed
      autoDeployScan := .deploying (.updating (.swapped x.descriptor.state)) } := by
  refine ⟨hx.single, nofun, fun _ => hx.reference (by rw [hp]; nofun), nofun, fun _ => nofun,
    fun old hupdating _ hold => ?_, nofun, hx.reported, fun _ => rfl⟩
  -- The status scan has not read `DEPLOYED`: it is only written now.
  obtain rfl : .deployed = old := hold
  refine absurd (hx.readDeployed ?_) (hx.notDeployed (by rw [hp]; rfl))
  rw [show x.statusScan = _ from hupdating]
  rfl

theorem isBetween_of_not_isUnderWay (h : x.autoDeployScan.isUnderWay = false) :
    x.autoDeployScan.isBetween = false := by
  unfold AutoDeployScanPoint.isBetween
  split
  · next hp => rw [hp] at h; cases h
  · next hp => rw [hp] at h; cases h
  · next hp => rw [hp] at h; cases h
  · rfl

theorem newScan {scanner : AutoScanner} (hx : InScan x) (hunder : x.isUnderWay scanner = false) :
    InScan (x.newScan scanner) := by
  cases scanner with
  | status => exact hx.of_status rfl rfl rfl rfl nofun nofun nofun
  | autoDeploy =>
    have hbetween := isBetween_of_not_isUnderWay hunder
    refine hx.of_autoDeploy (fun r hp => ?_) nofun rfl rfl rfl nofun hbetween.symm
    rw [hp] at hbetween
    cases hbetween

theorem instanceEnds [DecidableEq ρ] {reference : ρ} (hx : InScan x) :
    InScan (x.instanceEnds reference) := by
  have hsub : x.descriptor.alive.erase reference ⊆ x.descriptor.alive := List.erase_subset
  have hnil (h : x.descriptor.alive = []) : x.descriptor.alive.erase reference = [] := by
    rw [h]
    rfl
  exact ⟨Nat.le_trans List.erase_sublist.length_le hx.single,
    fun r hr r' hr' => hx.created r hr r' (hsub hr'), fun h r hr => hx.reference h r (hsub hr),
    fun h => hnil (hx.before h), fun h h' => hnil (hx.auth h h'),
    fun old h h' h'' => hnil (hx.pending old h h' h''), hx.notDeployed, hx.reported,
    hx.readDeployed⟩

/-- Every step keeps the invariant. -/
theorem step [DecidableEq ρ] (hx : InScan x) (h : ScanStep .truthful x y) : InScan y := by
  cases h with
  | enterStatus => exact hx.of_status rfl rfl rfl rfl nofun nofun nofun
  | readStatus => exact hx.readStatus
  | leaveStatus hp => exact hx.leaveStatus hp
  | probe hp hreports hne => exact hx.probe hp hreports hne
  | probeFails => exact hx.of_status rfl rfl rfl rfl nofun nofun nofun
  | compareAndSwap hp => exact hx.compareAndSwap hp
  | skip hp | fireStatus hp => exact hx.afterSwap hp rfl rfl rfl nofun
  | readDeploy hp => exact hx.readDeploy hp
  | leaveDeploy hp =>
    exact hx.stillBefore (by rw [hp]; nofun) nofun rfl rfl rfl (fun h => by rw [hp]; exact h)
      (by rw [hp]; rfl)
  | decide hp => exact hx.decide hp
  | create hp => exact hx.create hp
  | store hp => exact hx.store hp
  | swap hp => exact hx.swap hp
  | enterDeploy hp | deployFails hp | enterSet hp | fireDeploy hp | leaveSet hp =>
    exact hx.of_autoDeploy (by rw [hp]; nofun) nofun rfl rfl rfl nofun (by rw [hp]; rfl)
  | newScan _ hunder => exact hx.newScan hunder
  | instanceEnds => exact hx.instanceEnds

end InScan

theorem inScan_of_reachable [Fintype δ] [DecidableEq δ] [DecidableEq ρ]
    {m : δ → AbstractApplicationManager ρ η} {s : δ → ScannedDescriptor ρ}
    (h : (scanMachine m).ReachableOf (fun s a => World.truthful.allows m s a = true) s) (d : δ) :
    InScan (s d) := by
  refine h.invariant (I := fun s => InScan (s d)) ?_ fun s a t _ hs ha hst => ?_
  · rintro _ rfl
    exact ⟨Nat.zero_le 1, nofun, nofun, nofun, fun _ _ => rfl, nofun, nofun, nofun, nofun⟩
  · obtain heq | hstep := scanStep_of_step (d := d) rfl ha hst
    · rw [heq]
      exact hs
    · exact hs.step hstep

/-- **One instance.** If no probe reports `AUTH` while the instance is alive that the descriptor
refers to, no deployment that throws leaves an instance behind, and no cycle ends while a scan is
under way, then the two scanners never deploy an instance beside a live one, whatever else fails,
and whenever instances end: each application has at most one, and the descriptor refers to it or is
about to. -/
theorem soleInstance_of_reachable [Fintype δ] [DecidableEq δ] [DecidableEq ρ]
    {m : δ → AbstractApplicationManager ρ η} {s : δ → ScannedDescriptor ρ}
    (h : (scanMachine m).ReachableOf (fun s a => World.truthful.allows m s a = true) s) (d : δ) :
    SoleInstance (s d) :=
  (inScan_of_reachable h d).soleInstance

end Instances

theorem soleInstance_of_reachable_deployed : ∃ s : Unit → ScannedDescriptor ℕ,
    (s ()).descriptor.alive = [0] ∧ SoleInstance (s ()) := by
  obtain ⟨s, hrun, hs⟩ := (scanMachine fun _ : Unit => answering).exists_runOf_of_execOf
    (fun s a => World.truthful.allows (fun _ => answering) s a = true)
    (fun _ => .new) (cycles 10)
    (fun s => decide ((s ()).descriptor.alive = [0])) (by decide)
  exact ⟨s, of_decide_eq_true hs, soleInstance_of_reachable ⟨_, rfl, hrun⟩ ()⟩

/-- A world in which all goes well, but deployments take longer than the timeout of a cycle. -/
def World.slow : World := { calm with fails := true, leavesBehind := true }

/-- The scan of a cycle that has timed out deploys a second instance beside the one of the next. -/
example : (((scanMachine fun _ : Unit => answering).execOf
    (fun s a => World.slow.allows (fun _ => answering) s a = true) (fun _ => .new)
    (List.replicate 6 (.scan .status () (.probe () (some ⟨true, .ok true, .ok ()⟩))) ++
      List.replicate 4 (.scan .autoDeploy () (.deploy ())) ++ [.newCycle .autoDeploy] ++
      List.replicate 5 (.scan .autoDeploy () (.deploy ())) ++
      [.linger () 0 (.deploy ())])).map fun s => (s ()).descriptor.alive) = some [0, 0] := by
  decide

end Shabdiz
