import Shabdiz.Core.AbstractApplicationManager

/-!
# How a probe classifies what it finds

`AbstractApplicationManager` defines `probeState` as the code computes it: a call, a reachability
check and a command, one after the other, and a recursion over the causes of whatever is thrown.
This module says what the answer *is*, with no recursion of its own: the classes of a throwable
and of its causes form a list, outermost first, and the first of them that is recognised decides.

The five classes that are recognised are unrelated by inheritance (two of them extend
`IOException` through different parents), so a throwable has at most one of them and the order of
the tests cannot matter. What does matter is the order of the chain.

## Main definitions

* `Throwable.chain`, `ThrowableClass.state?` — the classes of a chain, and what each stands for
* `HostAnswer.reachable` — the reachability check, which a local host is spared

## Main results

* `Throwable.resolveState_eq` — the recursion finds the outermost recognised class
* `probeState_classifies` — the state a probe reports, for every outcome of the three calls
-/

namespace Shabdiz

/-! ### Chains of causes -/

namespace Throwable

/-- The classes of a throwable and of its causes, outermost first. -/
def chain : Throwable → List ThrowableClass
  | .thrown cls => [cls]
  | .causedBy cls cause => cls :: cause.chain

@[simp] theorem chain_thrown (cls : ThrowableClass) : (thrown cls).chain = [cls] := rfl

@[simp] theorem chain_causedBy (cls : ThrowableClass) (cause : Throwable) :
    (causedBy cls cause).chain = cls :: cause.chain := rfl

end Throwable

/-- The state that a class stands for, `none` for a class that is not recognised. -/
def ThrowableClass.state? : ThrowableClass → Option ApplicationState
  | .unknownHostException => some .invalid
  | .userAuthException => some .noAuth
  | .transportException => some .unreachable
  | .timeoutException => some .unreachable
  | .interruptedException => some .unknown
  | .exception => none
  | .error => none

namespace Throwable

/-- A throwable whose own class is recognised is not looked into any further. -/
theorem resolveState_of_state? {t : Throwable} {state : ApplicationState}
    (h : t.cls.state? = some state) : t.resolveState = state := by
  cases t with
  | thrown cls => cases cls <;> simp_all [Throwable.cls, ThrowableClass.state?, resolveState]
  | causedBy cls cause =>
    cases cls <;> simp_all [Throwable.cls, ThrowableClass.state?, resolveState]

/-- A throwable whose own class is not recognised stands for what its cause stands for. -/
theorem resolveState_causedBy {cls : ThrowableClass} (cause : Throwable) (h : cls.state? = none) :
    (causedBy cls cause).resolveState = cause.resolveState := by
  cases cls <;> simp_all [ThrowableClass.state?, resolveState]

theorem resolveState_thrown {cls : ThrowableClass} (h : cls.state? = none) :
    (thrown cls).resolveState = .unreachable := by
  cases cls <;> simp_all [ThrowableClass.state?, resolveState]

/-- The outermost recognised class of the chain decides, and `UNREACHABLE` is the answer when
there is none. -/
theorem resolveState_eq (t : Throwable) :
    t.resolveState = (t.chain.findSome? ThrowableClass.state?).getD .unreachable := by
  induction t with
  | thrown cls =>
    cases h : cls.state? with
    | none => simp [resolveState_thrown h, h]
    | some state => simp [resolveState_of_state? (t := thrown cls) h, h]
  | causedBy cls cause ih =>
    cases h : cls.state? with
    | none => simp [resolveState_causedBy cause h, h, ih]
    | some state => simp [resolveState_of_state? (t := causedBy cls cause) h, h]

end Throwable

/-! ### The host -/

namespace HostAnswer

/-- Whether the host is reached: a local host is not asked. -/
def reachable (host : HostAnswer) : Except Throwable Bool :=
  if host.isLocal then .ok true else host.isReachable

/-- The outcome in which a host is found wanting: its check threw, or the command did. -/
def Throws (host : HostAnswer) (t : Throwable) : Prop :=
  host.reachable = .error t ∨
    host.reachable = .ok true ∧ host.checkAuthorityByCommandExecution = .error t

variable {host : HostAnswer} {t : Throwable}

theorem probe_of_unreachable (h : host.reachable = .ok false) :
    host.probe = .ok .unreachable := by
  obtain ⟨isLocal, isReachable, check⟩ := host
  cases isLocal <;> simp_all [reachable, probe, bind, Except.bind, pure, Except.pure]

theorem probe_of_authorised (h : host.reachable = .ok true)
    (hc : host.checkAuthorityByCommandExecution = .ok ()) : host.probe = .ok .auth := by
  obtain ⟨isLocal, isReachable, check⟩ := host
  cases isLocal <;> simp_all [reachable, probe, bind, Except.bind, pure, Except.pure]

theorem probe_of_throws (h : host.Throws t) : host.probe = .error t := by
  obtain ⟨isLocal, isReachable, check⟩ := host
  cases isLocal <;> simp_all [Throws, reachable, probe, bind, Except.bind, pure, Except.pure]
  obtain rfl | ⟨rfl, rfl⟩ := h <;> simp

/-- The outcomes of the two calls, of which exactly one is the case. -/
theorem outcome_cases (host : HostAnswer) :
    host.reachable = .ok false ∨
      (host.reachable = .ok true ∧ host.checkAuthorityByCommandExecution = .ok ()) ∨
      ∃ t, host.Throws t := by
  cases hr : host.reachable with
  | error t => exact .inr (.inr ⟨t, .inl hr⟩)
  | ok reached =>
    cases reached with
    | false => exact .inl rfl
    | true =>
      cases hc : host.checkAuthorityByCommandExecution with
      | ok => exact .inr (.inl ⟨rfl, rfl⟩)
      | error t => exact .inr (.inr ⟨t, .inr ⟨hr, hc⟩⟩)

end HostAnswer

theorem probeHostState_of_throws {host : HostAnswer} {t : Throwable} (h : host.Throws t) :
    probeHostState (some host) = t.resolveState := by
  simp [probeHostState, HostAnswer.probe_of_throws h, resolveStateFromThrowable]

/-- A host is `AUTH` exactly when the minimal command was executed on it and succeeded. -/
theorem probeHostState_eq_auth_iff {host : HostAnswer} :
    probeHostState (some host) = .auth ↔
      host.reachable = .ok true ∧ host.checkAuthorityByCommandExecution = .ok () := by
  constructor
  · intro h
    obtain hu | ha | ⟨t, ht⟩ := host.outcome_cases
    · simp [probeHostState, HostAnswer.probe_of_unreachable hu] at h
    · exact ha
    · have hmem := t.resolveState_mem
      simp [← probeHostState_of_throws ht, h] at hmem
  · rintro ⟨hr, hc⟩
    simp [probeHostState, HostAnswer.probe_of_authorised hr hc]

/-! ### The probe -/

namespace AbstractApplicationManager

variable {ρ η : Type} (m : AbstractApplicationManager ρ η) (reference : Option ρ) (answer : η)

/-- A probe returns, whatever `Exception` the application call throws. -/
theorem exists_probeState_eq_ok (host : Option HostAnswer)
    (h : ∀ e, m.attemptApplicationCall reference answer = .error e → e.isException = true) :
    ∃ state, m.probeState reference answer host = .ok state := by
  cases hcall : m.attemptApplicationCall reference answer with
  | ok => exact ⟨.running, probeState_eq_running_iff.mpr hcall⟩
  | error e =>
    exact ⟨probeHostState host,
      by simp [probeState, probeApplicationState, hcall, h e hcall, bind, Except.bind]⟩

/-- **What a probe reports**, for every outcome of the application call, of the reachability check
and of the minimal command. -/
theorem probeState_classifies (host : Option HostAnswer)
    (h : ∀ e, m.attemptApplicationCall reference answer = .error e → e.isException = true) :
    ∃ state, m.probeState reference answer host = .ok state ∧
      (state = .running ↔ m.attemptApplicationCall reference answer = .ok ()) ∧
      (m.attemptApplicationCall reference answer ≠ .ok () →
        (host = none → state = .unknown) ∧
        ∀ host', host = some host' →
          (host'.reachable = .ok false → state = .unreachable) ∧
          (state = .auth ↔ host'.reachable = .ok true ∧
            host'.checkAuthorityByCommandExecution = .ok ()) ∧
          ∀ t, host'.Throws t →
            state = (t.chain.findSome? ThrowableClass.state?).getD .unreachable) := by
  obtain ⟨state, hstate⟩ := exists_probeState_eq_ok m reference answer host h
  refine ⟨state, hstate, ?_, fun hcall => ?_⟩
  · rw [← @probeState_eq_running_iff _ _ m reference answer host, hstate, Except.ok.injEq]
  · obtain ⟨hok, -⟩ | ⟨-, rfl⟩ := probeState_cases hstate
    · exact absurd hok hcall
    refine ⟨?_, ?_⟩
    · rintro rfl
      rfl
    · rintro host' rfl
      refine ⟨fun hu => ?_, probeHostState_eq_auth_iff, fun t ht => ?_⟩
      · simp [probeHostState, HostAnswer.probe_of_unreachable hu]
      · rw [probeHostState_of_throws ht, Throwable.resolveState_eq]

/-- A remote host that is reached and on which the command failed for want of authority, the cause
of which is a transport failure: the authority decides. -/
theorem probeState_classifies_noAuth :
    ∃ state, (unconstrained Unit).probeState (some ()) (.error (.thrown .exception))
        (some ⟨false, .ok true,
          .error (.causedBy .exception (.causedBy .userAuthException
            (.thrown .transportException)))⟩) = .ok state ∧ state = .noAuth := by
  obtain ⟨state, hstate, -, hhost⟩ := probeState_classifies
    (unconstrained Unit) (some ()) (.error (.thrown .exception))
    (some ⟨false, .ok true, .error (.causedBy .exception (.causedBy .userAuthException
      (.thrown .transportException)))⟩)
    (fun e he => by
      obtain rfl : Throwable.thrown .exception = e := by
        simpa [unconstrained, Except.map] using he
      rfl)
  refine ⟨state, hstate, ?_⟩
  exact ((hhost (by simp [unconstrained, Except.map])).2 _ rfl).2.2 _ (.inr ⟨rfl, rfl⟩)

end AbstractApplicationManager

end Shabdiz
