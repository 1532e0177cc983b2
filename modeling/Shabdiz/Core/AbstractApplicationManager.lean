import Mathlib.Init

/-!
# Application states and the manager that probes them

`AbstractApplicationManager` finds out the state of an application in two stages: it attempts an
application-specific call, and only if that throws does it look at the host. What the outside
world answers (the call, the reachability of the host, the minimal command) is an argument here,
so `probeState` is an ordinary function.

The classes of throwables are those `resolveStateFromThrowable` tells apart. `error` stands for
`java.lang.Error`, which `catch (Exception e)` lets through and `catch (Throwable e)` does not.

## Main definitions

* `ApplicationState`, `ArrayUtil.contains`
* `Throwable`, `resolveStateFromThrowable`
* `AbstractApplicationManager`, `AbstractApplicationManager.probeState`

## Main results

* `AbstractApplicationManager.probeState_eq_running_iff` — a probe reports `RUNNING` exactly when
  the application call succeeded
* `AbstractApplicationManager.probeState_ne` — no probe reports `DEPLOYED`, `KILLED` or `LAUNCHED`
-/

namespace Shabdiz

/-- The states of an application instance. -/
inductive ApplicationState where
  | deployed
  | auth
  | invalid
  | killed
  | launched
  | noAuth
  | running
  | unreachable
  | unknown
deriving DecidableEq

/-- Whether `elements` contain `target`. -/
def ArrayUtil.contains {α : Type} [DecidableEq α] (target : α) (elements : List α) : Bool :=
  elements.any fun element => element = target

theorem ArrayUtil.contains_iff {α : Type} [DecidableEq α] {target : α} {elements : List α} :
    contains target elements = true ↔ target ∈ elements := by
  simp [contains]

/-! ### Throwables -/

/-- The classes of throwables that the manager tells apart. -/
inductive ThrowableClass where
  | unknownHostException
  | userAuthException
  | transportException
  | timeoutException
  | interruptedException
  | exception
  | error
deriving DecidableEq

/-- A throwable, with its chain of causes. -/
inductive Throwable where
  | thrown (cls : ThrowableClass)
  | causedBy (cls : ThrowableClass) (cause : Throwable)
deriving DecidableEq

namespace Throwable

/-- The class of a throwable, whatever its cause. -/
def cls : Throwable → ThrowableClass
  | thrown cls | causedBy cls _ => cls

/-- Whether `catch (Exception e)` catches it. -/
def isException (t : Throwable) : Bool := t.cls ≠ .error

end Throwable

/-- `resolveStateFromThrowable` of a throwable that is not `null`. -/
def Throwable.resolveState : Throwable → ApplicationState
  | .thrown .unknownHostException | .causedBy .unknownHostException _ => .invalid
  | .thrown .userAuthException | .causedBy .userAuthException _ => .noAuth
  | .thrown .transportException | .causedBy .transportException _ => .unreachable
  | .thrown .timeoutException | .causedBy .timeoutException _ => .unreachable
  | .thrown .interruptedException | .causedBy .interruptedException _ => .unknown
  | .thrown _ => .unreachable
  | .causedBy _ cause => cause.resolveState

/-- The state that a throwable, or `null`, stands for. -/
def resolveStateFromThrowable : Option Throwable → ApplicationState
  | none => .unknown
  | some throwable => throwable.resolveState

/-! ### Probing -/

/-- What a host answers while its state is probed. -/
structure HostAnswer where
  isLocal : Bool
  /-- `InetAddress.getByName(host_name).isReachable(..)`. -/
  isReachable : Except Throwable Bool
  /-- A minimal command, executed on the host within the timeout. -/
  checkAuthorityByCommandExecution : Except Throwable Unit

/-- The body of `probeHostState`'s `try` block. -/
def HostAnswer.probe (host : HostAnswer) : Except Throwable ApplicationState := do
  let reachable ← if host.isLocal then pure true else host.isReachable
  if reachable then
    host.checkAuthorityByCommandExecution
    pure .auth
  else
    pure .unreachable

/-- The state of a host, which may be `null`. -/
def probeHostState : Option HostAnswer → ApplicationState
  | none => .unknown
  | some host =>
    match host.probe with
    | .ok state => state
    | .error e => resolveStateFromThrowable (some e)

/-- A manager, by what it does with an application reference (of type `ρ`, `none` for `null`)
and with the environment's answer (of type `η`). -/
structure AbstractApplicationManager (ρ η : Type) where
  /-- Deploy a new instance and return a reference to it. -/
  deploy : η → Except Throwable ρ
  /-- Kill the instance that the reference denotes. -/
  kill : Option ρ → η → Except Throwable Unit
  /-- The application-specific call of the state probe. -/
  attemptApplicationCall : Option ρ → η → Except Throwable Unit

namespace AbstractApplicationManager

variable {ρ η : Type} (m : AbstractApplicationManager ρ η)

/-- The first half of the probe: an application that answers its call is running. -/
def probeApplicationState (reference : Option ρ) (answer : η) :
    Except Throwable ApplicationState := do
  m.attemptApplicationCall reference answer
  pure .running

/-- The state of an application: `RUNNING` if the application call succeeds, else the state of
the host. -/
def probeState (reference : Option ρ) (answer : η) (host : Option HostAnswer) :
    Except Throwable ApplicationState :=
  match m.probeApplicationState reference answer with
  | .ok state => .ok state
  | .error e => if e.isException then .ok (probeHostState host) else .error e

end AbstractApplicationManager

/-- A manager of which nothing is known: the environment decides how each call ends. -/
def AbstractApplicationManager.unconstrained (ρ : Type) :
    AbstractApplicationManager ρ (Except Throwable ρ) where
  deploy answer := answer
  kill _ answer := answer.map fun _ => ()
  attemptApplicationCall _ answer := answer.map fun _ => ()

/-! ### What a probe can report -/

theorem Throwable.resolveState_mem (t : Throwable) :
    t.resolveState ∈ [.invalid, .noAuth, .unreachable, ApplicationState.unknown] := by
  induction t with
  | thrown cls => cases cls <;> simp [resolveState]
  | causedBy cls cause ih => cases cls <;> first | exact ih | simp [resolveState]

theorem probeHostState_mem (host : Option HostAnswer) :
    probeHostState host ∈
      [.auth, .invalid, .noAuth, .unreachable, ApplicationState.unknown] := by
  cases host with
  | none => simp [probeHostState]
  | some host =>
    simp only [probeHostState]
    split
    · rename_i state hs
      obtain ⟨isLocal, isReachable, check⟩ := host
      cases isLocal <;> rcases isReachable with e | (_ | _) <;> rcases check with e' | _ <;>
        simp_all [HostAnswer.probe, bind, Except.bind, pure, Except.pure]
    · rename_i e he
      exact List.mem_cons_of_mem _ (Throwable.resolveState_mem e)

namespace AbstractApplicationManager

variable {ρ η : Type} {m : AbstractApplicationManager ρ η} {reference : Option ρ} {answer : η}
  {host : Option HostAnswer} {new : ApplicationState}

/-- What a probe that returns has found: the call succeeded and the state is `RUNNING`, or it
threw an exception and the state is the host's. -/
theorem probeState_cases (h : m.probeState reference answer host = .ok new) :
    (m.attemptApplicationCall reference answer = .ok () ∧ new = .running) ∨
      ((∃ e, m.attemptApplicationCall reference answer = .error e) ∧
        new = probeHostState host) := by
  cases hcall : m.attemptApplicationCall reference answer with
  | ok =>
    left
    simp only [probeState, probeApplicationState, hcall, bind, Except.bind, pure, Except.pure,
      Except.ok.injEq] at h
    exact ⟨rfl, h.symm⟩
  | error e =>
    right
    simp only [probeState, probeApplicationState, hcall, bind, Except.bind] at h
    split at h
    · exact ⟨⟨e, rfl⟩, by simpa using h.symm⟩
    · cases h

/-- A probe reports `RUNNING` exactly when the application call succeeded. -/
theorem probeState_eq_running_iff :
    m.probeState reference answer host = .ok .running ↔
      m.attemptApplicationCall reference answer = .ok () := by
  constructor
  · intro h
    obtain ⟨hcall, -⟩ | ⟨-, hnew⟩ := probeState_cases h
    · exact hcall
    · have := probeHostState_mem host
      simp [← hnew] at this
  · intro h
    simp [probeState, probeApplicationState, h, bind, Except.bind, pure, Except.pure]

/-- No probe reports `DEPLOYED`, `KILLED` or `LAUNCHED`. -/
theorem probeState_ne (h : m.probeState reference answer host = .ok new) :
    new ≠ .deployed ∧ new ≠ .killed ∧ new ≠ .launched := by
  obtain ⟨-, rfl⟩ | ⟨-, rfl⟩ := probeState_cases h
  · decide
  · have := probeHostState_mem host
    refine ⟨?_, ?_, ?_⟩ <;> intro heq <;> simp [heq] at this

end AbstractApplicationManager

end Shabdiz
