import Shabdiz.Core.AwaitCompletion
import Shabdiz.Core.AwaitedStates

/-!
# The states that a network waited for

`awaitAnyOfStates` of a network submits one `awaitAnyOfStates` for each descriptor and returns when
all of them have returned. So it has seen every descriptor in one of the states, unless one of the
tasks was woken by a stale event.

## Main definitions

* `TaskGroup.SeesNow` — a descriptor is in one of the states while the call is in progress
* `TaskGroup.WakesStale` — the step that wakes a task for a state that has passed

## Main results

* `TaskGroup.Unseeing.step` — what a step of the call preserves
* `sees_of_returned` — an awaiter that returns has seen its state, and a network's call that
  returns has seen all its descriptors
-/

namespace Shabdiz

open ApplicationDescriptor

variable {δ ι ρ η : Type}

/-! ### A network -/

/-- Whether the call has not ended. -/
def TaskGroupPoint.inFlight : TaskGroupPoint → Bool
  | returned => false
  | thrown _ => false
  | _ => true

/-- The call is in progress, and the state of descriptor `d` is in `states`. -/
def TaskGroup.SeesNow (d : δ) (states : List ApplicationState) (c : TaskGroup δ ι ρ) : Prop :=
  c.point.inFlight = true ∧ (c.network d).shared.state ∈ states

/-- The step wakes a task for a state that the task's descriptor has not been in since the call
began, in `c₀`. -/
def TaskGroup.WakesStale (c₀ : TaskGroup δ ι ρ) (states : List ApplicationState)
    (c : TaskGroup δ ι ρ) : TaskGroupAction δ ι η → Prop
  | .network (d, (j, _)) => ∃ t ∈ c.tasks, t.descriptor = d ∧
      Shabdiz.WakesStale (c₀.network d).shared t.thread states (c.network d) j
  | _ => False

section Network

variable [DecidableEq δ] [DecidableEq ι] [DecidableEq ρ] {m : δ → AbstractApplicationManager ρ η}
  {c₀ c c' : TaskGroup δ ι ρ} {d : δ} {states : List ApplicationState}

omit [DecidableEq δ] [DecidableEq ι] [DecidableEq ρ] in
theorem Task.succeeded_of_complete {t : Task δ ι} {result : Except Throwable Unit}
    (h : (t.complete result).succeeded = true) : t.succeeded = true ∨ result = .ok () := by
  obtain ⟨d, i, ⟨outcome⟩⟩ := t
  cases outcome with
  | some o => cases result <;> exact Or.inl h
  | none =>
    cases result with
    | ok => exact Or.inr rfl
    | error e => cases h

omit [DecidableEq δ] [DecidableEq ι] [DecidableEq ρ] in
theorem Task.succeeded_of_cancel {t : Task δ ι} (h : t.cancel.succeeded = true) :
    t.succeeded = true := by
  obtain ⟨d, i, ⟨outcome⟩⟩ := t
  cases outcome with
  | some o => exact h
  | none => cases h

omit [DecidableEq ι] [DecidableEq ρ] in
/-- An awaiter that has not been served has not returned. -/
theorem Unserved.threadResult_ne {d₀ : ApplicationDescriptor ι ρ} {i : ι}
    {c : DescriptorConfig ι ρ} (h : Unserved d₀ i states c) :
    threadResult (c.thread i) ≠ some (.ok ()) := by
  intro hresult
  obtain hi | ⟨p, hi⟩ := h.operation
  · rw [hi] at hresult
    cases hresult
  · have hserved := h.served p hi
    rw [hi] at hresult
    cases p with
    | returned => cases hserved
    | _ => cases hresult

/-- What holds of the tasks for `d` along a run on which the call sees `d` in no state in
`states`. -/
structure TaskGroup.Unseeing (c₀ : TaskGroup δ ι ρ) (d : δ) (states : List ApplicationState)
    (c : TaskGroup δ ι ρ) : Prop where
  follows : Follows (c₀.network d).shared (c.network d).shared
  seen : c.point.inFlight = true → SeenSince (c₀.network d).shared (c.network d).shared states →
    (c.network d).shared.state ∈ states
  tasks : c.point.inFlight = true → ∀ t ∈ c.tasks, t.descriptor = d →
    Unserved (c₀.network d).shared t.thread states (c.network d) ∧ t.succeeded = false
  returned : c.point = .returned → ∀ t ∈ c.tasks, t.descriptor ≠ d

omit [DecidableEq δ] [DecidableEq ι] [DecidableEq ρ] in
/-- Completing or cancelling a future, by which no task for `d` succeeds. -/
theorem TaskGroup.Unseeing.modify (h : TaskGroup.Unseeing c₀ d states c) {k : Nat}
    {f : Task δ ι → Task δ ι} (hd : ∀ t, (f t).descriptor = t.descriptor)
    (hi : ∀ t, (f t).thread = t.thread) (hin : c.point.inFlight = c'.point.inFlight)
    (hsucceeded : ∀ t, c.tasks[k]? = some t → t.descriptor = d →
      Unserved (c₀.network d).shared t.thread states (c.network d) → t.succeeded = false →
      (f t).succeeded = false) (hnetwork : c'.network = c.network)
    (htasks : c'.tasks = c.tasks.modify k f) (hpoint : c'.point = .returned → c.point = .returned) :
    TaskGroup.Unseeing c₀ d states c' := by
  refine ⟨hnetwork ▸ h.follows, hin ▸ hnetwork ▸ h.seen, fun hflight t ht htd => ?_,
    fun hreturned t ht => ?_⟩
  · rw [htasks] at ht
    rw [hnetwork]
    rw [← hin] at hflight
    obtain ht | ⟨u, hu, rfl⟩ := mem_modify ht
    · exact h.tasks hflight t ht htd
    · rw [hd] at htd
      obtain ⟨hun, hnot⟩ := h.tasks hflight u (List.mem_of_getElem? hu) htd
      rw [hi]
      exact ⟨hun, hsucceeded u hu htd hun hnot⟩
  · rw [htasks] at ht
    obtain ht | ⟨u, hu, rfl⟩ := mem_modify ht
    · exact h.returned (hpoint hreturned) t ht
    · rw [hd]
      exact h.returned (hpoint hreturned) u (List.mem_of_getElem? hu)

/-- The descriptors of the network are in states that they can reach. -/
theorem TaskGroup.reachable_network {o : Operation} (h : (taskGroupMachine ι m o).Reachable c)
    (d : δ) : (descriptorMachine ι (m d)).Reachable (c.network d) := by
  have hnetwork : (networkMachine ι m).Reachable c.network := by
    refine h.invariant (I := fun c => (networkMachine ι m).Reachable c.network)
      (fun c hc => hc.1) ?_
    intro c a c' _ hc _ hs
    cases taskGroupStep_of_step hs with
    | network _ hnet => exact hc.trans (Machine.RunOf.refl.tail trivial hnet)
    | _ => exact hc
  exact hnetwork.proj d fun _ _ _ => trivial

/-- A step of the network is a step of one descriptor. -/
theorem TaskGroup.step_network {o : Operation} {d : δ} {j : ι} {e : Answer η}
    (hs : (taskGroupMachine ι m o).step c (.network (d, (j, e))) = some c') :
    (descriptorMachine ι (m d)).step (c.network d) (j, e) = some (c'.network d) ∧
      (∀ d', d' ≠ d → c'.network d' = c.network d') ∧ c'.tasks = c.tasks ∧ c'.point = c.point := by
  obtain ⟨-, hs⟩ := Option.ite_none_left_eq_some.mp hs
  obtain ⟨network, hnet, rfl⟩ := Option.map_eq_some_iff.mp hs
  obtain ⟨c₁, hc₁, rfl⟩ := Option.map_eq_some_iff.mp hnet
  refine ⟨?_, fun d' hd => Function.update_of_ne hd c₁ c.network, rfl, rfl⟩
  show (descriptorMachine ι (m d)).step (c.network d) (j, e) =
    some (Function.update c.network d c₁ d)
  rw [Function.update_self]
  exact hc₁

theorem TaskGroup.Unseeing.network_step {d' : δ} {j : ι} {e : Answer η}
    (h : TaskGroup.Unseeing c₀ d states c)
    (hr : (ApplicationNetwork.awaitAnyOfStates ι m states).Reachable c)
    (hP : ¬ TaskGroup.WakesStale c₀ states c (.network (d', (j, e)) : TaskGroupAction δ ι η))
    (hunseen : c.point.inFlight = true →
      ¬ SeenSince (c₀.network d).shared (c.network d).shared states)
    (hs : (ApplicationNetwork.awaitAnyOfStates ι m states).step c (.network (d', (j, e))) =
      some c') : TaskGroup.Unseeing c₀ d states c' := by
  obtain ⟨hstep, hother, htasks, hpoint⟩ := TaskGroup.step_network hs
  by_cases hd : d = d'
  · subst hd
    have heff := effect_of_step hstep
    refine ⟨h.follows.step heff, fun hin hseen => ?_, fun hin t ht htd => ?_,
      htasks ▸ hpoint ▸ h.returned⟩
    · rw [hpoint] at hin
      obtain hseen | hstate := hseen.of_step h.follows heff
      · exact absurd hseen (hunseen hin)
      · exact hstate
    · rw [hpoint] at hin
      rw [htasks] at ht
      obtain ⟨hun, hnone⟩ := h.tasks hin t ht htd
      have hnot : ¬ Shabdiz.WakesStale (c₀.network d).shared t.thread states (c.network d) j :=
        fun hstale => hP ⟨t, ht, htd, hstale⟩
      exact ⟨hun.step (TaskGroup.reachable_network hr d) h.follows (fun _ => hunseen hin) hnot
        hstep, hnone⟩
  · have hnetwork := hother d hd
    refine ⟨?_, ?_, ?_, htasks ▸ hpoint ▸ h.returned⟩
    · rw [hnetwork]
      exact h.follows
    · rw [hnetwork, hpoint]
      exact h.seen
    · rw [hnetwork, hpoint, htasks]
      exact h.tasks

/-- **What a step of the call preserves.** -/
theorem TaskGroup.Unseeing.step {a : TaskGroupAction δ ι η}
    (h : TaskGroup.Unseeing c₀ d states c)
    (hr : (ApplicationNetwork.awaitAnyOfStates ι m states).Reachable c)
    (hP : ¬ TaskGroup.WakesStale c₀ states c a) (hnot : ¬ TaskGroup.SeesNow d states c)
    (hs : (ApplicationNetwork.awaitAnyOfStates ι m states).step c a = some c') :
    TaskGroup.Unseeing c₀ d states c' := by
  have hunseen : c.point.inFlight = true →
      ¬ SeenSince (c₀.network d).shared (c.network d).shared states :=
    fun hin hseen => hnot ⟨hin, h.seen hin hseen⟩
  cases taskGroupStep_of_step hs with
  | @network a =>
    obtain ⟨d', j, e⟩ := a
    exact h.network_step hr hP hunseen hs
  | submit hpoint hready =>
    refine ⟨h.follows, h.seen, fun hin t ht htd => ?_, fun hreturned => ?_⟩
    · obtain ht | rfl := List.mem_append.mp ht |>.imp_right List.mem_singleton.mp
      · exact h.tasks hin t ht htd
      · subst htd
        exact ⟨unserved_of_ready hready, rfl⟩
    · cases hpoint.symm.trans hreturned
  | endLoop hpoint | interrupt hpoint | get hpoint =>
    have hin : c.point.inFlight = true := by rw [hpoint]; rfl
    exact ⟨h.follows, fun _ => h.seen hin, fun _ => h.tasks hin, by rintro ⟨⟩⟩
  | @complete k t result ht hresult =>
    refine h.modify (f := Task.complete result) (fun _ => rfl) (fun _ => rfl) rfl ?_ rfl rfl id
    intro u hu hud hun hnone
    obtain rfl := Option.some.inj (ht.symm.trans hu)
    by_contra hsucc
    obtain hsucc | rfl := Task.succeeded_of_complete (by simpa using hsucc)
    · rw [hnone] at hsucc
      cases hsucc
    · rw [hud] at hresult
      exact hun.threadResult_ne hresult
  | @cancel k e hpoint =>
    have hin : c.point.inFlight = true := by rw [hpoint]; rfl
    refine h.modify (f := Task.cancel) (fun _ => rfl) (fun _ => rfl) hin ?_ rfl rfl (by rintro ⟨⟩)
    intro u _ _ _ hnone
    by_contra hsucc
    rw [Task.succeeded_of_cancel (by simpa using hsucc)] at hnone
    cases hnone
  | @finish k e hpoint =>
    cases e with
    | some e => exact ⟨h.follows, by rintro ⟨⟩, by rintro ⟨⟩, by rintro ⟨⟩⟩
    | none =>
      have hin : c.point.inFlight = true := by rw [hpoint]; rfl
      have hall := reports_of_reachable hr
      rw [hpoint] at hall
      refine ⟨h.follows, by rintro ⟨⟩, by rintro ⟨⟩, fun _ t ht htd => ?_⟩
      have hnone := (h.tasks hin t ht htd).2
      rw [hall t ht] at hnone
      cases hnone

/-- A network's call that returns has seen each of its descriptors in one of the states. -/
theorem TaskGroup.runsThrough_of_returned
    (hinit : (ApplicationNetwork.awaitAnyOfStates ι m states).init c₀)
    (hreturned : c.point = .returned) {t : Task δ ι} (ht : t ∈ c.tasks) :
    (ApplicationNetwork.awaitAnyOfStates ι m states).RunsThrough
      (fun c a => ¬ TaskGroup.WakesStale c₀ states c a) (TaskGroup.SeesNow t.descriptor states)
      c₀ c := by
  intro h
  have hunseeing : TaskGroup.Unseeing c₀ t.descriptor states c := by
    refine h.invariant (I := TaskGroup.Unseeing c₀ t.descriptor states) ?_
      fun c a c' hrun hc hP hs => hc.step ⟨c₀, hinit, hrun.run⟩ hP.1 hP.2 hs
    obtain ⟨-, htasks, hpoint⟩ := hinit
    refine ⟨Follows.refl, fun _ hseen => ?_, fun _ t ht => ?_, by simp [hpoint]⟩
    · obtain hseen | ⟨new, -, hmem⟩ := hseen
      · exact hseen
      · simp at hmem
    · simp [htasks] at ht
  exact hunseeing.returned hreturned t ht rfl

end Network

/-- **An awaiter that returns has seen its state**, if no event wakes it for a state that has
passed; and so has the call of a network, of each descriptor it has gone through. -/
theorem sees_of_returned [DecidableEq δ] [DecidableEq ι] [DecidableEq ρ] :
    (∀ (m : AbstractApplicationManager ρ η) (c₀ c : DescriptorConfig ι ρ) (i : ι)
        (states : List ApplicationState), (descriptorMachine ι m).Reachable c₀ →
      c₀.thread i = .running (.awaitAnyOfStates states .entry) →
      c.thread i = .running (.awaitAnyOfStates states .returned) →
      (descriptorMachine ι m).RunsThrough (fun c a => ¬ WakesStale c₀.shared i states c a.1)
        (SeesNow i states) c₀ c) ∧
    ∀ (m : δ → AbstractApplicationManager ρ η) (c₀ c : TaskGroup δ ι ρ)
        (states : List ApplicationState), (ApplicationNetwork.awaitAnyOfStates ι m states).init c₀ →
      c.point = .returned → ∀ t ∈ c.tasks,
        (ApplicationNetwork.awaitAnyOfStates ι m states).RunsThrough
          (fun c a => ¬ TaskGroup.WakesStale c₀ states c a)
          (TaskGroup.SeesNow t.descriptor states) c₀ c :=
  ⟨fun _ _ _ _ _ => runsThrough_of_returned,
    fun _ _ _ _ hinit hreturned _ ht => TaskGroup.runsThrough_of_returned hinit hreturned ht⟩

/-! ### Two calls that return -/

section Example

/-- The call in which two descriptors, `false` and `true`, wait for `UNKNOWN`. -/
def twoAwaiters : TaskGroup Bool Unit Unit where
  network _ := ⟨.new, fun _ => .ready (.awaitAnyOfStates [.unknown])⟩
  tasks := []
  point := .submitting

theorem twoAwaiters_init :
    (ApplicationNetwork.awaitAnyOfStates Unit (fun _ : Bool => .unconstrained Unit)
      [.unknown]).init twoAwaiters :=
  ⟨⟨_, fun _ => ⟨rfl, fun _ => ⟨_, rfl⟩⟩, Machine.RunOf.refl⟩, rfl, rfl⟩

/-- Both tasks are submitted, run and completed, and the caller goes to its end. -/
def awaitBoth : List (TaskGroupAction Bool Unit (Except Throwable Unit)) :=
  [.submit false (), .submit true (), .endLoop] ++
    List.replicate 4 (.network (false, (), .go)) ++ List.replicate 4 (.network (true, (), .go)) ++
    [.complete 0, .complete 1] ++ List.replicate 4 .caller

/-- Whether the step fires an event outside the monitor. -/
def firesOutside (c : TaskGroup Bool Unit Unit) :
    TaskGroupAction Bool Unit (Except Throwable Unit) → Bool
  | .network (d, (j, _)) => (((c.network d).thread j).view matches ⟨false, .pending _ _⟩)
  | _ => false

/-- A writer wakes the awaiter from inside the monitor; two awaiters find their states. -/
theorem sees_of_returned_runs :
    (∃ c₀ c, (descriptorMachine Nat (.unconstrained Unit)).RunOf
        (fun c a => ¬ WakesStale c₀.shared 0 [.running] c a.1) c₀ c ∧
      c.thread 0 = .running (.awaitAnyOfStates [.running] .returned) ∧
      (descriptorMachine Nat (.unconstrained Unit)).RunsThrough
        (fun c a => ¬ WakesStale c₀.shared 0 [.running] c a.1) (SeesNow 0 [.running]) c₀ c) ∧
    ∃ c, (ApplicationNetwork.awaitAnyOfStates Unit (fun _ : Bool => .unconstrained Unit)
        [.unknown]).RunOf (fun c a => ¬ TaskGroup.WakesStale twoAwaiters [.unknown] c a)
          twoAwaiters c ∧ c.point = .returned ∧ c.tasks ≠ [] ∧
      ∀ t ∈ c.tasks, (ApplicationNetwork.awaitAnyOfStates Unit
        (fun _ : Bool => .unconstrained Unit) [.unknown]).RunsThrough
          (fun c a => ¬ TaskGroup.WakesStale twoAwaiters [.unknown] c a)
          (TaskGroup.SeesNow t.descriptor [.unknown]) twoAwaiters c := by
  constructor
  · obtain ⟨c₀, c, hr, hrun, hc⟩ :=
      (descriptorMachine Nat (.unconstrained Unit)).exists_run_runOf_of_execOf
        (fun c a => ((c.thread a.1).view matches ⟨false, .pending _ _⟩) = false) awaiterAndWriters
        (steps 0 1) (steps 0 4 ++ steps 3 5 ++ steps 0 2)
        (fun c₀ c => AwaiterAt .entry c₀ && AwaiterAt .returned c) (by decide)
    obtain ⟨hentry, hreturned⟩ := Bool.and_eq_true_iff.mp hc
    refine ⟨c₀, c, hrun.mono ?_, of_decide_eq_true hreturned,
      sees_of_returned (δ := Unit).1 _ c₀ c 0 [.running] ⟨_, awaiterAndWriters_init, hr⟩
        (of_decide_eq_true hentry) (of_decide_eq_true hreturned)⟩
    rintro d a hnot ⟨old, new, hj, -⟩
    simp [hj] at hnot
  · obtain ⟨c, hrun, hc⟩ := (ApplicationNetwork.awaitAnyOfStates Unit
      (fun _ : Bool => .unconstrained Unit) [.unknown]).exists_runOf_of_execOf
        (fun c a => firesOutside c a = false) twoAwaiters awaitBoth
        (fun c => c.point = .returned ∧ c.tasks ≠ []) (by decide)
    obtain ⟨hpoint, htasks⟩ := of_decide_eq_true hc
    refine ⟨c, hrun.mono ?_, hpoint, htasks,
      sees_of_returned.2 _ twoAwaiters c [.unknown] twoAwaiters_init hpoint⟩
    rintro d (⟨d', j, e⟩ | _ | _ | _ | _ | _) hnot
    · rintro ⟨t, -, -, old, new, hj, -⟩
      simp [firesOutside, hj] at hnot
    · rintro ⟨⟩
    · rintro ⟨⟩
    · rintro ⟨⟩
    · rintro ⟨⟩
    · rintro ⟨⟩

end Example

end Shabdiz
