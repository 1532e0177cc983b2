import Shabdiz.Concurrency.History
import Shabdiz.Core.Writes

/-!
# Where a state comes from

When nobody sets the state directly, each of the three states that speak of an instance rests on
something that has happened: `DEPLOYED` on a deployment whose reference has been stored, `KILLED`
on a kill, `RUNNING` on a successful application call. The call that writes the state is the call
that did it.

## Main definitions

* `Justified` — what a call must have done before it may write a state
* `Sourced` — every write, and the application reference, come from where they should

## Main results

* `sourced_of_reachable` — the invariant
* `state_provenance` — what a state says about the past, for every descriptor of a network
-/

namespace Shabdiz

open ApplicationDescriptor

variable {ι ρ η : Type} {i j : ι} {log : List (Event ι ρ)} {new : ApplicationState}

/-- What call `i` must have done before it writes a state. -/
def Justified (i : ι) (log : List (Event ι ρ)) : ApplicationState → Prop
  | .deployed => ∃ reference, InOrder [.deployed i reference, .stored i reference] log
  | .killed => .killed i ∈ log
  | .running => .probed i true .running ∈ log
  | _ => True

/-- What call `i` has done by the time it is at a stage. -/
def Stage.Justified (i : ι) (log : List (Event ι ρ)) : Stage ρ → Prop
  | .created reference => .deployed i reference ∈ log
  | .ready _ new => Shabdiz.Justified i log new
  | _ => True

/-- The writes of the log and the application reference come from where they should, and what was
deployed was deployed by the manager. -/
structure Sourced (m : AbstractApplicationManager ρ η) (d : ApplicationDescriptor ι ρ) : Prop where
  writes : ∀ before i old new after, d.log = before ++ .wrote i old new :: after →
    Justified i before new
  reference : ∀ reference, d.applicationReference = some reference →
    ∃ i, InOrder [.deployed i reference, .stored i reference] d.log
  deploys : ∀ i reference, .deployed i reference ∈ d.log →
    ∃ answer, m.deploy answer = .ok reference

theorem Justified.append (h : Justified i log new) (l : List (Event ι ρ)) :
    Justified i (log ++ l) new := by
  cases new with
  | deployed =>
    obtain ⟨reference, hr⟩ := h
    exact ⟨reference, hr.append l⟩
  | killed => exact List.mem_append_left l h
  | running => exact List.mem_append_left l h
  | _ => trivial

theorem Stage.Justified.append {s : Stage ρ} (h : s.Justified i log) (l : List (Event ι ρ)) :
    s.Justified i (log ++ l) := by
  cases s with
  | created reference => exact List.mem_append_left l h
  | ready expect new => exact Shabdiz.Justified.append h l
  | _ => trivial

/-- The writes of a log with one more event: those it had, and perhaps that event. -/
theorem justified_concat {e : Event ι ρ}
    (h : ∀ before i old new after, log = before ++ .wrote i old new :: after →
      Justified i before new)
    (he : ∀ i old new, e = .wrote i old new → Justified i log new) :
    ∀ before i old new after, log ++ [e] = before ++ .wrote i old new :: after →
      Justified i before new := by
  intro before i old new after heq
  obtain ⟨-, rfl, hw⟩ | ⟨after', -, hlog⟩ := concat_eq_append_cons heq
  · exact he i old new hw.symm
  · exact h before i old new after' hlog

variable {m : AbstractApplicationManager ρ η} {d d' : ApplicationDescriptor ι ρ} {v v' : View ρ}
  {answer : Answer η}

/-- Recording an event that is neither a write nor a deployment. -/
theorem Sourced.concat (h : Sourced m d) {e : Event ι ρ} (hlog : d'.log = d.log ++ [e])
    (hwrite : ∀ i old new, e = .wrote i old new → Justified i d.log new)
    (hdeploy : ∀ i reference, e = .deployed i reference → ∃ answer, m.deploy answer = .ok reference)
    (hreference : ∀ reference, d'.applicationReference = some reference →
      d.applicationReference = some reference ∨
        ∃ i, .deployed i reference ∈ d.log ∧ e = .stored i reference) : Sourced m d' := by
  refine ⟨?_, fun reference hr => ?_, fun i reference hr => ?_⟩
  · rw [hlog]
    exact justified_concat h.writes hwrite
  · rw [hlog]
    obtain hr | ⟨i, hi, rfl⟩ := hreference reference hr
    · obtain ⟨i, hi⟩ := h.reference reference hr
      exact ⟨i, hi.append [e]⟩
    · exact ⟨i, inOrder_pair_concat.mpr (Or.inr ⟨hi, rfl⟩)⟩
  · rw [hlog] at hr
    obtain hr | hr := List.mem_append.mp hr
    · exact h.deploys i reference hr
    · exact hdeploy i reference (List.mem_singleton.mp hr).symm

variable [DecidableEq ι] [DecidableEq ρ]

/-- **The step lemma.** A call that has done what its stage asks for keeps everything sourced. -/
theorem Sourced.step (h : Sourced m d) (hv : v.stage.Justified i d.log)
    (heff : Effect m i answer d v d' v') : Sourced m d' := by
  cases heff with
  | create _ hdeploy =>
    refine h.concat rfl (by simp) (fun j r hr => ?_) fun _ hr => Or.inl hr
    obtain ⟨-, rfl⟩ := by simpa using hr
    exact ⟨_, hdeploy⟩
  | store =>
    refine h.concat rfl (by simp) (by simp) fun r hr => Or.inr ?_
    obtain rfl : _ = r := Option.some.inj hr
    exact ⟨i, hv, rfl⟩
  | swap | compareAndSwap =>
    refine h.concat rfl (fun j old new hw => ?_) (by simp) fun _ hr => Or.inl hr
    obtain ⟨rfl, -, rfl⟩ := by simpa using hw
    exact hv
  | read | check | satisfy | probe | fire =>
    exact h.concat rfl (by simp) (by simp) fun _ hr => Or.inl hr
  | kill => exact h.concat rfl (by simp) (by simp) fun _ hr => Or.inl hr
  | _ => exact ⟨h.writes, h.reference, h.deploys⟩

/-- A call does what the stage it goes to asks for. -/
theorem Stage.Justified.step (h : v.stage.Justified i d.log) (heff : Effect m i answer d v d' v') :
    v'.stage.Justified i d'.log := by
  cases heff with
  | create => exact List.mem_append_right _ (List.mem_singleton_self _)
  | store => exact ⟨_, inOrder_pair_concat.mpr (Or.inr ⟨h, rfl⟩)⟩
  | kill => exact List.mem_append_right _ (List.mem_singleton_self _)
  | @probe a host old new _ hprobe =>
    -- a probe never finds the other two states that have to be justified
    obtain ⟨hdeployed, hkilled, -⟩ := AbstractApplicationManager.probeState_ne hprobe
    show Shabdiz.Justified i (d.log ++ [_]) new
    cases new with
    | deployed => exact absurd rfl hdeployed
    | killed => exact absurd rfl hkilled
    | running =>
      rw [AbstractApplicationManager.probeState_eq_running_iff] at hprobe
      rw [hprobe]
      exact List.mem_append_right _ (List.mem_singleton_self _)
    | _ => trivial
  | enter | leave | stay => exact h
  | _ => trivial

/-! ### Over runs -/

variable {c : DescriptorConfig ι ρ}

omit [DecidableEq ι] [DecidableEq ρ] in
theorem Operation.start_justified (o : Operation) (ho : o.writesDirectly = false) :
    (o.start : Call ρ).view.stage.Justified i log := by
  cases o <;> trivial

theorem sourced_of_reachable (h : (descriptorMachine ι m).ReachableOf (NoDirectWrite m) c) :
    Sourced m c.shared := by
  refine (Interleaving.owickiGries (G := Sourced m) (J := fun i d t =>
    ((calls ι m).opOf t).writesDirectly = false → t.view.stage.Justified i d.log) h ?_ ?_ ?_).1
  · refine ⟨⟨fun before i old new after hlog => ?_, fun r hr => ?_, fun i r hr => ?_⟩, ?_⟩
    · simp at hlog
    · cases hr
    · cases hr
    · exact fun i o ho => o.start_justified ho
  · intro c i e c' _ hc hP hs
    have heff := effect_of_step hs
    have hv := hc.2 i hP
    exact ⟨hc.1.step hv heff, fun _ => hv.step heff⟩
  · intro c i e c' j _ hc _ hs _ hop
    obtain hlog | ⟨x, -, hlog⟩ := (effect_of_step hs).log_eq
    · rw [hlog]
      exact hc.2 j hop
    · rw [hlog]
      exact (hc.2 j hop).append [x]

/-- The write behind a state other than `UNKNOWN`, with what justified it. -/
theorem exists_justified_write (h : (descriptorMachine ι m).ReachableOf (NoDirectWrite m) c)
    (hne : c.shared.state ≠ .unknown) : ∃ before i old after,
      c.shared.log = before ++ .wrote i old c.shared.state :: after ∧
        Justified i before c.shared.state := by
  have hstate := state_eq_stateAfter h
  have hmem : c.shared.state ∈ written c.shared.log := by
    cases hlast : (written c.shared.log).getLast? with
    | none =>
      rw [stateAfter, hlast] at hstate
      exact absurd hstate hne
    | some s =>
      rw [stateAfter, hlast] at hstate
      rw [hstate]
      exact List.mem_of_getLast? hlast
  obtain ⟨i, old, hw⟩ := mem_written.mp hmem
  obtain ⟨before, after, hlog⟩ := List.append_of_mem hw
  exact ⟨before, i, old, after, hlog, (sourced_of_reachable h).writes _ _ _ _ _ hlog⟩

omit [DecidableEq ι] [DecidableEq ρ] in
/-- What happened before a write comes before it in the log. -/
theorem inOrder_of_before {before after es : List (Event ι ρ)} {e : Event ι ρ}
    (h : InOrder es before) : InOrder (es ++ [e]) (before ++ e :: after) := by
  rw [show before ++ e :: after = (before ++ [e]) ++ after by simp]
  exact (inOrder_concat.mpr (Or.inr ⟨h, rfl⟩)).append after

/-- **State provenance.** In a network whose states are written only by deployments, kills and
scans: a descriptor is `DEPLOYED` only after a deployment of it has returned and its reference has
been stored, `KILLED` only after a kill of it has returned, `RUNNING` only after an application
call on it has succeeded. If the manager never deploys, the descriptor is never `DEPLOYED` and has
no reference. -/
theorem state_provenance {δ : Type} [DecidableEq δ] {m : δ → AbstractApplicationManager ρ η}
    {c : δ → DescriptorConfig ι ρ}
    (h : (networkMachine ι m).ReachableOf (fun c a => NoDirectWrite (m a.1) (c a.1) a.2) c)
    (d : δ) :
    ((c d).shared.state = .deployed → ∃ i reference old,
      InOrder [.deployed i reference, .stored i reference, .wrote i old .deployed]
        (c d).shared.log) ∧
    ((c d).shared.state = .killed → ∃ i old,
      InOrder [.killed i, .wrote i old .killed] (c d).shared.log) ∧
    ((c d).shared.state = .running → ∃ i old,
      InOrder [.probed i true .running, .wrote i old .running] (c d).shared.log) ∧
    ((∀ answer, ∃ e, (m d).deploy answer = .error e) →
      (c d).shared.state ≠ .deployed ∧ (c d).shared.applicationReference = none) := by
  have hd : (descriptorMachine ι (m d)).ReachableOf (NoDirectWrite (m d)) (c d) :=
    Machine.ReachableOf.proj h d fun _ _ hP => hP
  have hsourced := sourced_of_reachable hd
  have hdeployed : (c d).shared.state = .deployed → ∃ i reference old,
      InOrder [.deployed i reference, .stored i reference, .wrote i old .deployed]
        (c d).shared.log := by
    intro hs
    obtain ⟨before, i, old, after, hlog, hjust⟩ := exists_justified_write hd (by simp [hs])
    rw [hs] at hlog hjust
    obtain ⟨reference, hord⟩ := hjust
    exact ⟨i, reference, old, hlog ▸ inOrder_of_before hord⟩
  refine ⟨hdeployed, fun hs => ?_, fun hs => ?_, fun hthrows => ?_⟩
  · obtain ⟨before, i, old, after, hlog, hjust⟩ := exists_justified_write hd (by simp [hs])
    rw [hs] at hlog hjust
    exact ⟨i, old, hlog ▸ inOrder_of_before (inOrder_singleton.mpr hjust)⟩
  · obtain ⟨before, i, old, after, hlog, hjust⟩ := exists_justified_write hd (by simp [hs])
    rw [hs] at hlog hjust
    exact ⟨i, old, hlog ▸ inOrder_of_before (inOrder_singleton.mpr hjust)⟩
  · have hnone : ∀ i reference, .deployed i reference ∉ (c d).shared.log := by
      intro i reference hmem
      obtain ⟨answer, hok⟩ := hsourced.deploys i reference hmem
      obtain ⟨e, herror⟩ := hthrows answer
      rw [hok] at herror
      cases herror
    constructor
    · intro hs
      obtain ⟨i, reference, old, hord⟩ := hdeployed hs
      exact hnone i reference (hord.mem (by simp))
    · rw [Option.eq_none_iff_forall_ne_some]
      intro reference hr
      obtain ⟨i, hord⟩ := hsourced.reference reference hr
      exact hnone i reference (hord.mem (by simp))

/-- A network of two descriptors, one of which is deployed. -/
theorem state_provenance_deployed :
    ∃ c : Fin 2 → DescriptorConfig (Fin 1) Unit, (c 0).shared.state = .deployed ∧
      ∃ i reference old, InOrder [.deployed i reference, .stored i reference,
        .wrote i old .deployed] (c 0).shared.log := by
  let m : Fin 2 → AbstractApplicationManager Unit (Except Throwable Unit) :=
    fun _ => .unconstrained Unit
  let c₀ : Fin 2 → DescriptorConfig (Fin 1) Unit := fun _ => ⟨.new, fun _ => .ready .deploy⟩
  obtain ⟨c, hr, hc⟩ := (networkMachine (Fin 1) m).exists_runOf_of_execOf
    (fun c a => NoDirectWrite (m a.1) (c a.1) a.2) c₀
    [(0, 0, .go), (0, 0, .deploy (.ok ())), (0, 0, .go), (0, 0, .go), (0, 0, .go)]
    (fun c => (c 0).shared.state = .deployed) (by decide)
  have hreach : (networkMachine (Fin 1) m).ReachableOf
      (fun c a => NoDirectWrite (m a.1) (c a.1) a.2) c :=
    ⟨c₀, fun _ => ⟨rfl, fun _ => ⟨_, rfl⟩⟩, hr⟩
  have hs := of_decide_eq_true hc
  exact ⟨c, hs, (state_provenance hreach 0).1 hs⟩

end Shabdiz
