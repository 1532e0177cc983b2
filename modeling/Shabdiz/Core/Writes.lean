import Shabdiz.Core.Effects
import Mathlib.Tactic.Cases

/-!
# The writes of a descriptor

Every swap of the state reference is in the log, so the state can be recovered from the log: it is
the last value written, and `UNKNOWN` before the first write. A call writes once, and fires once,
after it has written.

## Main definitions

* `written` — the values written in a history
* `stateAfter` — the state at the end of a history
* `Swaps` — how the writes and firings of a call stand, by its stage

## Main results

* `state_eq_stateAfter` — the state is the one that the log says
* `swaps_of_reachable` — a call fires once, after its one write
-/

namespace Shabdiz

open ApplicationDescriptor

variable {ι ρ η : Type}

/-! ### The state, from the log -/

/-- The values written in `log`, in order. -/
def written (log : List (Event ι ρ)) : List ApplicationState :=
  log.filterMap fun
    | .wrote _ _ new => some new
    | _ => none

/-- The state after `log`, if it was `s` before. -/
def stateAfter (s : ApplicationState) (log : List (Event ι ρ)) : ApplicationState :=
  (written log).getLast?.getD s

@[simp] theorem written_nil : written ([] : List (Event ι ρ)) = [] := rfl

@[simp] theorem written_append (l l' : List (Event ι ρ)) :
    written (l ++ l') = written l ++ written l' := List.filterMap_append

@[simp] theorem written_wrote (i : ι) (old new : ApplicationState) :
    written [(.wrote i old new : Event ι ρ)] = [new] := rfl

theorem written_quiet {e : Event ι ρ} (he : e.quiet = true) : written [e] = [] := by
  cases e <;> first | rfl | cases he

theorem mem_written {log : List (Event ι ρ)} {new : ApplicationState} :
    new ∈ written log ↔ ∃ i old, .wrote i old new ∈ log := by
  simp only [written, List.mem_filterMap]
  constructor
  · rintro ⟨e, he, hnew⟩
    cases e <;> cases hnew
    exact ⟨_, _, he⟩
  · rintro ⟨i, old, h⟩
    exact ⟨_, h, rfl⟩

theorem stateAfter_append (s : ApplicationState) (l l' : List (Event ι ρ)) :
    stateAfter s (l ++ l') = stateAfter (stateAfter s l) l' := by
  simp only [stateAfter, written_append, List.getLast?_append]
  cases (written l').getLast? <;> rfl

/-- A history after which the state is `s` again has no write, or its last write is of `s`. -/
theorem stateAfter_eq_self {s : ApplicationState} {log : List (Event ι ρ)} :
    stateAfter s log = s ↔ written log = [] ∨ (written log).getLast? = some s := by
  rw [stateAfter]
  cases h : (written log).getLast? with
  | none => simp [List.getLast?_eq_none_iff.mp h]
  | some t =>
    have hne : written log ≠ [] := by
      intro hnil
      simp [hnil] at h
    simp [hne]

variable [DecidableEq ι] [DecidableEq ρ] {m : AbstractApplicationManager ρ η}
  {P : DescriptorConfig ι ρ → ι × Answer η → Prop} {c : DescriptorConfig ι ρ}

/-- **The state is what the log says.** -/
theorem state_eq_stateAfter (h : (descriptorMachine ι m).ReachableOf P c) :
    c.shared.state = stateAfter .unknown c.shared.log := by
  refine shared_invariant (G := fun d => d.state = stateAfter .unknown d.log) h rfl ?_
  intro c i e d' v' _ hd _ heff
  obtain ⟨b, expect, new, -, rfl, -⟩ | ⟨b, old, new, -, rfl, -⟩ | ⟨hstate, -, hlog⟩ :=
    heff.swap_or_fire_or_quiet
  · simp [stateAfter]
  · rw [firePropertyChange_state, firePropertyChange_log, stateAfter_append, ← hd]
    rfl
  · rw [hstate, hd]
    obtain hlog | ⟨e, -, he, hlog⟩ := hlog
    · rw [hlog]
    · rw [hlog, stateAfter_append, stateAfter, stateAfter, written_quiet he]
      rfl

/-! ### One swap, one event -/

/-- What the log holds of the swap and the event of call `i`, by the stage the call is in. -/
def Swaps (i : ι) (log : List (Event ι ρ)) : Stage ρ → Prop
  | .pending old new =>
    .wrote i old new ∈ log ∧ .fired i ∉ log ∧
      ∀ old' new', .wrote i old' new' ∈ log → old' = old ∧ new' = new
  | .ended => ∀ old new, .wrote i old new ∈ log → .fired i ∈ log
  | _ => .fired i ∉ log ∧ ∀ old new, .wrote i old new ∉ log

omit [DecidableEq ι] [DecidableEq ρ] in
theorem Swaps.concat {i : ι} {log : List (Event ι ρ)} {s : Stage ρ} {e : Event ι ρ}
    (h : Swaps i log s) (he : e.owner ≠ i) : Swaps i (log ++ [e]) s := by
  have hfired : .fired i ∈ log ++ [e] ↔ .fired i ∈ log := Event.mem_concat_of_owner_ne he
  have hwrote : ∀ old new, .wrote i old new ∈ log ++ [e] ↔ .wrote i old new ∈ log :=
    fun _ _ => Event.mem_concat_of_owner_ne he
  cases s <;> simpa only [Swaps, hfired, hwrote] using h

theorem swaps_of_reachable (h : (descriptorMachine ι m).ReachableOf P c) (i : ι) :
    Swaps i c.shared.log (c.thread i).view.stage := by
  refine (descriptor_invariant (G := fun _ => True)
    (A := fun i d v => Swaps i d.log v.stage) h ?_ ?_ ?_).2 i
  · refine ⟨trivial, fun i o => ?_⟩
    obtain hstart | ⟨expect, new, hstart⟩ := o.view_start (ρ := ρ)
    · simp [hstart, Swaps]
    · simp [hstart, Swaps]
  · intro c i e c' d' v v' _ _ hA _ _ _ hv heff
    have hi := hA i
    rw [hv] at hi
    clear hA
    refine ⟨trivial, ?_⟩
    cases heff with
    | unlisten => exact hi
    | _ => simp_all [Swaps]
  · intro c i e c' d' v v' j _ _ hA _ _ _ _ heff hj
    obtain hlog | ⟨e, he, hlog⟩ := heff.log_eq
    · rw [hlog]
      exact hA j
    · rw [hlog]
      exact (hA j).concat (he ▸ hj.symm)

end Shabdiz
