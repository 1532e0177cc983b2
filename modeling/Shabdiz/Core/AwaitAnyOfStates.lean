import Shabdiz.Concurrency.History
import Shabdiz.Core.Writes

/-!
# Waiting for a state

`awaitAnyOfStates` checks the state and adds a listener in one synchronized block, "to prevent the
state from changing between checking the current state and adding the listener".
`setApplicationState` takes the same monitor, `compareAndSetApplicationState` does not. So a
compare-and-set may swap the state and fire its event while an awaiter stands between the two, and
the awaiter then waits for an event that has passed.

## Main definitions

* `LostWakeUp` — an awaiter is blocked, nobody is going to wake it, and the state it waits for
  was reached after its check
* `FiresUnheard` — the step that loses the wake-up

## Main results

* `monitor_eq_of_inside` — mutual exclusion inside the monitor
* `exists_lostWakeUp` — a wake-up can be lost
* `not_lostWakeUp` — and is lost in no other way than by `FiresUnheard`
-/

namespace Shabdiz

open ApplicationDescriptor

variable {ι ρ η : Type} [DecidableEq ι] [DecidableEq ρ] {m : AbstractApplicationManager ρ η}
  {P : DescriptorConfig ι ρ → ι × Answer η → Prop} {c : DescriptorConfig ι ρ}

/-! ### Mutual exclusion -/

/-- A call inside the monitor is the one that the monitor records. -/
theorem monitor_eq_of_inside (h : (descriptorMachine ι m).ReachableOf P c) (i : ι)
    (hi : (c.thread i).view.inside = true) : c.shared.monitor = some i := by
  refine (descriptor_invariant (G := fun _ => True)
    (A := fun i d v => v.inside = true → d.monitor = some i) h ?_ ?_ ?_).2 i hi
  · refine ⟨trivial, fun i o => ?_⟩
    obtain hstart | ⟨expect, new, hstart⟩ := o.view_start (ρ := ρ)
    · simp [hstart]
    · simp [hstart]
  · intro c i e c' d' v v' _ _ hA _ _ _ hv heff
    have hi := hA i
    rw [hv] at hi
    refine ⟨trivial, ?_⟩
    cases heff <;> simp_all
  · intro c i e c' d' v v' j _ _ hA _ _ _ hv heff hj hin
    have hi := hA i
    have hmon := hA j hin
    rw [hv] at hi
    cases heff with
    | enter hfree => simp [hfree] at hmon
    | leave => exact absurd (Option.some.inj (hmon.symm.trans (hi rfl))) hj
    | _ => simpa using hmon

/-! ### The awaiter's side -/

/-- Some call wrote a state in `states` after call `i` had checked. -/
def Reached (i : ι) (states : List ApplicationState) (log : List (Event ι ρ)) : Prop :=
  ∃ j old new, new ∈ states ∧ InOrder [.checked i, .wrote j old new] log

/-- The latch of call `i` is counted down, or a call that reached `states` is still to fire. -/
def Alerted (i : ι) (states : List ApplicationState) (d : ApplicationDescriptor ι ρ) : Prop :=
  i ∈ d.countedDown ∨ ∃ j old new, new ∈ states ∧ old ≠ new ∧
    InOrder [.checked i, .wrote j old new] d.log ∧ .fired j ∉ d.log

/-- Call `i` has checked, and will hear of every state in `states` reached since. -/
structure Watching (i : ι) (states : List ApplicationState) (d : ApplicationDescriptor ι ρ) :
    Prop where
  checked : .checked i ∈ d.log
  reached : d.state ∈ states → Reached i states d.log
  alerted : Reached i states d.log → Alerted i states d

/-- What holds of call `i` while its awaiter is at a stage. -/
def Guarded (i : ι) (d : ApplicationDescriptor ι ρ) : Stage ρ → Prop
  | .idle => .checked i ∉ d.log
  | .checked states => Watching i states d
  | .listening states => ⟨i, states⟩ ∈ d.stateChangeListeners ∧ Watching i states d
  | _ => True

section Watching

variable {i j : ι} {states : List ApplicationState} {d d' : ApplicationDescriptor ι ρ}
  {e : Event ι ρ}

omit [DecidableEq ι] [DecidableEq ρ] in
theorem Reached.append {log : List (Event ι ρ)} (h : Reached i states log) (l : List (Event ι ρ)) :
    Reached i states (log ++ l) := by
  obtain ⟨j, old, new, hnew, hlog⟩ := h
  exact ⟨j, old, new, hnew, hlog.append l⟩

omit [DecidableEq ι] [DecidableEq ρ] in
/-- Only a write of a state in `states` reaches them. -/
theorem reached_concat {log : List (Event ι ρ)} (hi : .checked i ∈ log) :
    Reached i states (log ++ [e]) ↔
      Reached i states log ∨ ∃ j old new, new ∈ states ∧ e = .wrote j old new := by
  constructor
  · rintro ⟨j, old, new, hnew, hlog⟩
    obtain hlog | ⟨-, rfl⟩ := inOrder_pair_concat.mp hlog
    · exact Or.inl ⟨j, old, new, hnew, hlog⟩
    · exact Or.inr ⟨j, old, new, hnew, rfl⟩
  · rintro (h | ⟨j, old, new, hnew, rfl⟩)
    · exact h.append [e]
    · exact ⟨j, old, new, hnew, inOrder_pair_concat.mpr (Or.inr ⟨hi, rfl⟩)⟩

omit [DecidableEq ι] [DecidableEq ρ] in
/-- An alert outlasts every step but the firing of the call that has to fire. -/
theorem Alerted.concat (h : Alerted i states d) (hcounted : d'.countedDown = d.countedDown)
    (hlog : d'.log = d.log ++ [e]) (he : ∀ j, e ≠ .fired j) : Alerted i states d' := by
  obtain h | ⟨j, old, new, hnew, hne, hord, hfired⟩ := h
  · exact Or.inl (hcounted ▸ h)
  · refine Or.inr ⟨j, old, new, hnew, hne, hlog ▸ hord.append [e], ?_⟩
    rw [hlog, List.mem_append, List.mem_singleton]
    rintro (hmem | heq)
    · exact hfired hmem
    · exact he j heq.symm

omit [DecidableEq ι] [DecidableEq ρ] in
theorem Watching.quiet (h : Watching i states d) (hstate : d'.state = d.state)
    (hcounted : d'.countedDown = d.countedDown)
    (hlog : d'.log = d.log ∨ ∃ e, e.quiet = true ∧ d'.log = d.log ++ [e]) :
    Watching i states d' := by
  obtain hlog | ⟨e, he, hlog⟩ := hlog
  · refine ⟨hlog ▸ h.checked, fun hs => hlog ▸ h.reached (hstate ▸ hs), fun hr => ?_⟩
    have := h.alerted (hlog ▸ hr)
    rwa [Alerted, hcounted, hlog]
  · refine ⟨?_, fun hs => ?_, fun hr => ?_⟩
    · rw [hlog]
      exact List.mem_append_left _ h.checked
    · rw [hlog]
      exact (h.reached (hstate ▸ hs)).append [e]
    · rw [hlog, reached_concat h.checked] at hr
      obtain hr | ⟨j, old, new, -, rfl⟩ := hr
      · refine (h.alerted hr).concat hcounted hlog ?_
        rintro j rfl
        simp [Event.quiet] at he
      · simp [Event.quiet] at he

omit [DecidableEq ι] [DecidableEq ρ] in
/-- A swap into `states` is an alert: either the state was in `states` before, and there is one
already, or the swap changes the state and is still to be announced. -/
theorem Watching.swap (h : Watching i states d) {new : ApplicationState}
    (hj : .fired j ∉ d.log) : Watching i states (d.swap j new) := by
  have hkeep : Reached i states d.log → Alerted i states (d.swap j new) := fun hr =>
    (h.alerted hr).concat rfl rfl (by simp)
  refine ⟨List.mem_append_left _ h.checked, fun hs => ?_, fun hr => ?_⟩
  · exact (reached_concat h.checked).mpr (Or.inr ⟨j, d.state, new, hs, rfl⟩)
  · obtain hr | ⟨j', old, new', hnew, heq⟩ := (reached_concat h.checked).mp hr
    · exact hkeep hr
    · obtain ⟨rfl, rfl, rfl⟩ := by simpa using heq
      by_cases hold : d.state ∈ states
      · exact hkeep (h.reached hold)
      · refine Or.inr ⟨j, d.state, new, hnew, fun heq => hold (heq ▸ hnew), ?_, ?_⟩
        · exact inOrder_pair_concat.mpr (Or.inr ⟨h.checked, rfl⟩)
        · simpa using hj

omit [DecidableEq ι] [DecidableEq ρ] in
/-- A firing keeps the watch, if the listener is registered or the firing is not for `states`. -/
theorem Watching.fire (h : Watching i states d) {old new : ApplicationState}
    (hwrote : ∀ old' new', .wrote j old' new' ∈ d.log → old' = old ∧ new' = new)
    (hheard : new ∈ states → old ≠ new → InOrder [.checked i, .wrote j old new] d.log →
      ⟨i, states⟩ ∈ d.stateChangeListeners) :
    Watching i states (d.firePropertyChange j old new) := by
  refine ⟨List.mem_append_left _ h.checked, fun hs => (h.reached hs).append _, fun hr => ?_⟩
  obtain hr | ⟨j', old', new', -, heq⟩ := (reached_concat h.checked).mp hr
  · obtain hcounted | ⟨j', old', new', hnew, hne, hord, hfired⟩ := h.alerted hr
    · left
      simp only [firePropertyChange_countedDown]
      split
      · exact hcounted
      · exact List.mem_append_left _ hcounted
    · by_cases hjj : j' = j
      · -- the call that fires is the one that has reached `states`
        subst hjj
        obtain ⟨rfl, rfl⟩ := hwrote old' new' (hord.mem (by simp))
        have hl := hheard hnew hne hord
        left
        simp only [firePropertyChange_countedDown, if_neg hne]
        refine List.mem_append_right _ (List.mem_map.mpr ⟨_, List.mem_filter.mpr ⟨hl, ?_⟩, rfl⟩)
        exact ArrayUtil.contains_iff.mpr hnew
      · refine Or.inr ⟨j', old', new', hnew, hne, hord.append _, ?_⟩
        simpa [hjj] using hfired
  · cases heq

end Watching

/-! ### Lost wake-ups -/

/-- The call has swapped the state and not yet fired the change. -/
def DeployPoint.writing : DeployPoint ρ → Bool
  | updating p => p.inFlight
  | _ => false

/-- The call has swapped the state and not yet fired the change. -/
def KillPoint.writing : KillPoint → Bool
  | updating p => p.inFlight
  | _ => false

/-- Whether a call is inside `setApplicationState` or `compareAndSetApplicationState`. -/
def Call.writing : Call ρ → Bool
  | setApplicationState _ p => p.inFlight
  | compareAndSetApplicationState _ _ p => p.inFlight
  | deploy p => p.writing
  | kill p => p.writing
  | statusScan (.updating _ _ p) => p.inFlight
  | autoDeployScan (.deploying p) => p.writing
  | autoKillScan (.killing p) => p.writing
  | _ => false

/-- Call `i` is blocked on its latch, no writer is in flight, and a state that `i` waits for has
been reached since its check. -/
structure LostWakeUp (c : DescriptorConfig ι ρ) (i : ι) (states : List ApplicationState) :
    Prop where
  waiting : c.thread i = .running (.awaitAnyOfStates states .waiting)
  blocked : i ∉ c.shared.countedDown
  quiet : ∀ j k, c.thread j = .running k → k.writing = false
  reached : Reached i states c.shared.log

/-- Call `j` has compared and set the state outside the monitor, and is about to fire the event
while an awaiter that waits for it has checked and has not added its listener. -/
def FiresUnheard (c : DescriptorConfig ι ρ) (j : ι) : Prop :=
  ∃ old new i states, (c.thread j).view = ⟨false, .pending old new⟩ ∧ old ≠ new ∧
    (c.thread i).view.stage = .checked states ∧ new ∈ states ∧
    InOrder [.checked i, .wrote j old new] c.shared.log

omit [DecidableEq ι] [DecidableEq ρ] in
theorem Call.writing_of_pending {k : Call ρ} {old new : ApplicationState}
    (h : k.view.stage = .pending old new) : k.writing = true := by
  cases k with
  | awaitAnyOfStates states p => cases p <;> cases h
  | setApplicationState new p => cases p <;> first | rfl | cases h
  | compareAndSetApplicationState expect new p => cases p <;> first | rfl | cases h
  | deploy p => rcases p with _ | _ | (_ | _ | _ | _ | _) | _ <;> first | rfl | cases h
  | kill p => rcases p with _ | (_ | _ | _ | _ | _) | _ <;> first | rfl | cases h
  | statusScan p => rcases p with _ | ⟨_, _, _ | _ | _⟩ | _ <;> first | rfl | cases h
  | autoDeployScan p =>
    rcases p with _ | (_ | _ | (_ | _ | _ | _ | _) | _) | _ <;> first | rfl | cases h
  | autoKillScan p => rcases p with _ | (_ | (_ | _ | _ | _ | _) | _) | _ <;> first | rfl | cases h

omit [DecidableEq ι] [DecidableEq ρ] in
/-- An awaiter between its check and its registration is inside the monitor. -/
theorem Thread.inside_of_checked {t : Thread Operation (Call ρ)} {states : List ApplicationState}
    (h : t.view.stage = .checked states) : t.view.inside = true := by
  cases t with
  | ready o => cases o <;> cases h
  | running k =>
    cases k with
    | awaitAnyOfStates states p => cases p <;> first | rfl | cases h
    | setApplicationState new p => cases p <;> cases h
    | compareAndSetApplicationState expect new p => cases p <;> cases h
    | deploy p => rcases p with _ | _ | (_ | _ | _ | _ | _) | _ <;> cases h
    | kill p => rcases p with _ | (_ | _ | _ | _ | _) | _ <;> cases h
    | statusScan p => rcases p with _ | ⟨_, _, _ | _ | _⟩ | _ <;> cases h
    | autoDeployScan p => rcases p with _ | (_ | _ | (_ | _ | _ | _ | _) | _) | _ <;> cases h
    | autoKillScan p => rcases p with _ | (_ | (_ | _ | _ | _ | _) | _) | _ <;> cases h

/-! ### The invariant -/

section Guarded

variable {i j : ι} {s : Stage ρ} {d d' : ApplicationDescriptor ι ρ}

omit [DecidableEq ι] [DecidableEq ρ] in
theorem Guarded.quiet (h : Guarded i d s) (hstate : d'.state = d.state)
    (hcounted : d'.countedDown = d.countedDown)
    (hlog : d'.log = d.log ∨ ∃ e, e.owner ≠ i ∧ e.quiet = true ∧ d'.log = d.log ++ [e])
    (hl : ∀ l ∈ d.stateChangeListeners, l.owner = i → l ∈ d'.stateChangeListeners) :
    Guarded i d' s := by
  have hlog' : d'.log = d.log ∨ ∃ e, e.quiet = true ∧ d'.log = d.log ++ [e] := by
    obtain hlog | ⟨e, -, he, hlog⟩ := hlog
    · exact Or.inl hlog
    · exact Or.inr ⟨e, he, hlog⟩
  cases s with
  | idle =>
    obtain hlog | ⟨e, he, -, hlog⟩ := hlog
    · rw [Guarded, hlog]
      exact h
    · rw [Guarded, hlog, Event.mem_concat_of_owner_ne he]
      exact h
  | checked states => exact Watching.quiet h hstate hcounted hlog'
  | listening states => exact ⟨hl _ h.1 rfl, h.2.quiet hstate hcounted hlog'⟩
  | _ => trivial

omit [DecidableEq ι] [DecidableEq ρ] in
theorem Guarded.swap (h : Guarded i d s) {new : ApplicationState} (hj : .fired j ∉ d.log) :
    Guarded i (d.swap j new) s := by
  cases s with
  | idle => simpa [Guarded] using h
  | checked states => exact Watching.swap h hj
  | listening states => exact ⟨h.1, h.2.swap hj⟩
  | _ => trivial

omit [DecidableEq ι] [DecidableEq ρ] in
theorem Guarded.fire (h : Guarded i d s) {old new : ApplicationState}
    (hwrote : ∀ old' new', .wrote j old' new' ∈ d.log → old' = old ∧ new' = new)
    (hheard : ∀ states, s = .checked states → new ∈ states → old ≠ new →
      ¬ InOrder [.checked i, .wrote j old new] d.log) :
    Guarded i (d.firePropertyChange j old new) s := by
  cases s with
  | idle => simpa [Guarded] using h
  | checked states =>
    exact Watching.fire h hwrote fun hnew hne hord => absurd hord (hheard states rfl hnew hne)
  | listening states => exact ⟨h.1, h.2.fire hwrote fun _ _ _ => h.1⟩
  | _ => trivial

omit [DecidableEq ι] [DecidableEq ρ] in
theorem Watching.check {states : List ApplicationState} (hs : d.isInAnyOfStates states = false)
    (hi : .checked i ∉ d.log) : Watching i states (d.record (.checked i)) := by
  refine ⟨by simp, fun hin => ?_, ?_⟩
  · have : d.isInAnyOfStates states = true := ArrayUtil.contains_iff.mpr hin
    rw [this] at hs
    cases hs
  · rintro ⟨j, old, new, -, hord⟩
    obtain hord | ⟨hmem, -⟩ := inOrder_pair_concat.mp hord
    · exact absurd (hord.mem (by simp)) hi
    · exact absurd hmem hi

end Guarded

/-- As long as no call fires unheard, every awaiter is guarded. -/
theorem guarded_of_reachable
    (h : (descriptorMachine ι m).ReachableOf (fun c a => ¬ FiresUnheard c a.1) c) (i : ι) :
    Guarded i c.shared (c.thread i).view.stage := by
  refine (descriptor_invariant (G := fun _ => True)
    (A := fun i d v => Guarded i d v.stage) h ?_ ?_ ?_).2 i
  · refine ⟨trivial, fun i o => ?_⟩
    obtain hstart | ⟨expect, new, hstart⟩ := o.view_start (ρ := ρ)
    · simp [hstart, Guarded]
    · simp [hstart, Guarded]
  · -- the awaiter's own steps
    intro c i e c' d' v v' _ _ hA _ _ _ hv heff
    have hi := hA i
    rw [hv] at hi
    refine ⟨trivial, ?_⟩
    cases heff with
    | enter | leave | stay => exact hi.quiet rfl rfl (Or.inl rfl) fun _ hl _ => hl
    | check hs => exact Watching.check hs hi
    | listen => exact ⟨by simp, Watching.quiet hi rfl rfl (Or.inl rfl)⟩
    | read => simpa [Guarded] using hi
    | _ => trivial
  · -- the steps of another call `j`
    intro c j e c' d' v v' i hr _ hA hP _ _ hv heff hij
    have hi := hA i
    have hswaps := swaps_of_reachable hr j
    rw [hv] at hswaps
    obtain ⟨b, expect, new, rfl, rfl, -⟩ | ⟨b, old, new, rfl, rfl, -⟩ | ⟨hstate, hcounted, hlog⟩ :=
      heff.swap_or_fire_or_quiet
    · exact hi.swap hswaps.1
    · refine hi.fire hswaps.2.2 fun states hs hnew hne hord => ?_
      have hin := Thread.inside_of_checked hs
      cases b with
      | false => exact hP ⟨old, new, i, states, hv, hne, hs, hnew, hord⟩
      | true =>
        -- both calls are inside the monitor
        have hmon := monitor_eq_of_inside hr j (by rw [hv])
        rw [monitor_eq_of_inside hr i hin] at hmon
        exact hij (Option.some.inj hmon)
    · refine hi.quiet hstate hcounted ?_ fun l hl hli => ?_
      · obtain hlog | ⟨e, he, hq, hlog⟩ := hlog
        · exact Or.inl hlog
        · exact Or.inr ⟨e, he ▸ hij.symm, hq, hlog⟩
      · exact heff.mem_stateChangeListeners hl (hli ▸ hij)

/-- **No other wake-up is lost.** In a run in which no call fires its event while an awaiter that
waits for it has checked and has not added its listener, no awaiter is ever left behind. -/
theorem not_lostWakeUp
    (h : (descriptorMachine ι m).ReachableOf (fun c a => ¬ FiresUnheard c a.1) c) (i : ι)
    (states : List ApplicationState) : ¬ LostWakeUp c i states := by
  rintro ⟨hwaiting, hblocked, hquiet, hreached⟩
  have hi := guarded_of_reachable h i
  rw [hwaiting] at hi
  obtain hcounted | ⟨j, old, new, -, -, hord, hfired⟩ := hi.2.alerted hreached
  · exact hblocked hcounted
  · -- call `j` has swapped and not fired, so it is in flight
    have hwrote : .wrote j old new ∈ c.shared.log := hord.mem (by simp)
    have hj := swaps_of_reachable h j
    cases hs : (c.thread j).view.stage with
    | pending old' new' =>
      cases hk : c.thread j with
      | ready o =>
        rw [hk] at hs
        cases o <;> cases hs
      | running k =>
        have hk' := hquiet j k hk
        rw [hk] at hs
        rw [Call.writing_of_pending hs] at hk'
        cases hk'
    | ended =>
      rw [hs] at hj
      exact hfired (hj old new hwrote)
    | _ =>
      rw [hs] at hj
      exact hj.2 old new hwrote

/-! ### A lost wake-up -/

section Example

/-- Call `0` waits for `RUNNING` and call `1` compares `UNKNOWN` and sets `RUNNING`. -/
def awaiterAndWriter : DescriptorConfig (Fin 2) Unit where
  shared := .new
  thread i := .ready
    (if i = 0 then .awaitAnyOfStates [.running]
      else .compareAndSetApplicationState .unknown .running)

/-- The awaiter checks, the writer swaps and fires, the awaiter adds its listener and blocks. -/
def unheardSchedule : List (Fin 2 × Answer (Except Throwable Unit)) :=
  [(0, .go), (0, .go), (0, .go), (1, .go), (1, .go), (1, .go), (0, .go), (0, .go)]

/-- The awaiter checks, adds its listener and blocks, the writer swaps and fires. -/
def heardSchedule : List (Fin 2 × Answer (Except Throwable Unit)) :=
  [(0, .go), (0, .go), (0, .go), (0, .go), (0, .go), (1, .go), (1, .go), (1, .go)]

/-- The end of both schedules, but for the latch. -/
def AwaiterAndWriterDone (c : DescriptorConfig (Fin 2) Unit) : Prop :=
  c.thread 0 = .running (.awaitAnyOfStates [.running] .waiting) ∧
    c.thread 1 = .running (.compareAndSetApplicationState .unknown .running (.returned true)) ∧
    InOrder [.checked 0, .wrote 1 .unknown .running] c.shared.log

instance (c : DescriptorConfig (Fin 2) Unit) : Decidable (AwaiterAndWriterDone c) :=
  inferInstanceAs (Decidable (_ ∧ _ ∧ _))

theorem awaiterAndWriter_init :
    (descriptorMachine (Fin 2) (.unconstrained Unit)).init awaiterAndWriter :=
  ⟨rfl, fun _ => ⟨_, rfl⟩⟩

/-- A wake-up can be lost. -/
theorem exists_lostWakeUp :
    ∃ c, (descriptorMachine (Fin 2) (.unconstrained Unit)).Reachable c ∧
      LostWakeUp c 0 [.running] := by
  obtain ⟨c, hr, hc⟩ := (descriptorMachine (Fin 2) (.unconstrained Unit)).exists_run_of_exec
    awaiterAndWriter unheardSchedule
    (fun c => AwaiterAndWriterDone c ∧ 0 ∉ c.shared.countedDown) (by decide)
  obtain ⟨⟨h₀, h₁, hlog⟩, hblocked⟩ := of_decide_eq_true hc
  refine ⟨c, ⟨_, awaiterAndWriter_init, hr⟩, h₀, hblocked, ?_, 1, _, _, by simp, hlog⟩
  intro j k hk
  match j with
  | 0 =>
    rw [h₀] at hk
    obtain rfl := Thread.running.inj hk
    rfl
  | 1 =>
    rw [h₁] at hk
    obtain rfl := Thread.running.inj hk
    rfl

/-- In `heardSchedule` the writer fires when the awaiter has added its listener. -/
theorem not_lostWakeUp_heardSchedule :
    ∃ c, (descriptorMachine (Fin 2) (.unconstrained Unit)).Reachable c ∧
      AwaiterAndWriterDone c ∧ ¬ LostWakeUp c 0 [.running] := by
  obtain ⟨c, hr, hc⟩ := (descriptorMachine (Fin 2) (.unconstrained Unit)).exists_runOf_of_execOf
    (fun c a => ((c.thread a.1).view.stage matches .pending _ _) = false ∨
      ∀ i, ((c.thread i).view.stage matches .checked _) = false)
    awaiterAndWriter heardSchedule (fun c => AwaiterAndWriterDone c) (by decide)
  have hreach : (descriptorMachine (Fin 2) (.unconstrained Unit)).ReachableOf
      (fun c a => ¬ FiresUnheard c a.1) c := by
    refine ⟨_, awaiterAndWriter_init, hr.mono ?_⟩
    rintro d a hgap ⟨old, new, i, states, hj, -, hi, -⟩
    obtain hgap | hgap := hgap
    · simp [hj] at hgap
    · have := hgap i
      simp [hi] at this
  exact ⟨c, hreach.reachable, of_decide_eq_true hc, not_lostWakeUp hreach 0 [.running]⟩

end Example

end Shabdiz
