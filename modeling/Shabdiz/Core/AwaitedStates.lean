import Shabdiz.Core.AwaitAnyOfStates

/-!
# The state that was waited for

`awaitAnyOfStates` returns once its latch is counted down, and the latch is counted down by the
event of a swap. `setApplicationState` swaps and fires inside the monitor in which the listener is
added, so its swap is no older than the listener. `compareAndSetApplicationState` swaps and fires
outside it: its event can reach a listener that was added after the swap, when another writer has
moved the state on, and then the awaiter returns for a state that the descriptor was never in while
it waited.

## Main definitions

* `SeenSince` — a state in `states` was reached between two moments, both included
* `WakesStale` — the step that wakes an awaiter for a state that has passed
* `Unserved` — what holds of an awaiter that has not seen its state, if no step does that
* `SeesNow` — what a call that returns must have gone through

## Main results

* `runsThrough_of_returned` — it has, on every run with no such step
* `exists_unseen_of_wakesStale` — after such a step an awaiter can return without
* `exists_returned_unseen` — and there are such steps
-/

namespace Shabdiz

open ApplicationDescriptor

variable {ι ρ η : Type}

/-! ### States seen since a moment -/

/-- The state was in `states` when the descriptor was `d₀`, or has been at some moment between that
and `d`. -/
def SeenSince (d₀ d : ApplicationDescriptor ι ρ) (states : List ApplicationState) : Prop :=
  d₀.state ∈ states ∨ ∃ new ∈ states, new ∈ written (d.log.drop d₀.log.length)

instance (d₀ d : ApplicationDescriptor ι ρ) (states : List ApplicationState) :
    Decidable (SeenSince d₀ d states) :=
  inferInstanceAs (Decidable (_ ∨ _))

/-- `d` comes after `d₀`. -/
structure Follows (d₀ d : ApplicationDescriptor ι ρ) : Prop where
  log : d₀.log <+: d.log
  seen : ∀ states, d.state ∈ states → SeenSince d₀ d states

section Follows

variable {d₀ d d' : ApplicationDescriptor ι ρ} {states : List ApplicationState}

theorem Follows.refl : Follows d₀ d₀ := ⟨List.prefix_refl _, fun _ => Or.inl⟩

/-- What is seen stays seen. -/
theorem SeenSince.append {l : List (Event ι ρ)} (h : SeenSince d₀ d states)
    (hlog : d'.log = d.log ++ l) : SeenSince d₀ d' states := by
  obtain h | ⟨new, hnew, hmem⟩ := h
  · exact Or.inl h
  · refine Or.inr ⟨new, hnew, ?_⟩
    rw [hlog, List.drop_append, written_append]
    exact List.mem_append_left _ hmem

theorem seenSince_append_iff {l : List (Event ι ρ)} (hpre : d₀.log <+: d.log)
    (hlog : d'.log = d.log ++ l) :
    SeenSince d₀ d' states ↔ SeenSince d₀ d states ∨ ∃ new ∈ states, new ∈ written l := by
  have hdrop : d'.log.drop d₀.log.length = d.log.drop d₀.log.length ++ l := by
    rw [hlog, List.drop_append_of_le_length hpre.length_le]
  simp only [SeenSince, hdrop, written_append, List.mem_append, and_or_left, exists_or, or_assoc]

variable [DecidableEq ι] [DecidableEq ρ] {m : AbstractApplicationManager ρ η} {i : ι}
  {answer : Answer η} {v v' : View ρ}

/-- A step writes the state it leaves behind, or writes nothing. -/
theorem Effect.written (h : Effect m i answer d v d' v') :
    ∃ l, d'.log = d.log ++ l ∧
      (Shabdiz.written l = [d'.state] ∨ (Shabdiz.written l = [] ∧ d'.state = d.state)) := by
  obtain ⟨b, expect, new, -, rfl, -⟩ | ⟨b, old, new, -, rfl, -⟩ | ⟨hstate, -, hlog⟩ :=
    h.swap_or_fire_or_quiet
  · exact ⟨[.wrote i d.state new], rfl, Or.inl rfl⟩
  · exact ⟨[.fired i], rfl, Or.inr ⟨rfl, rfl⟩⟩
  · obtain hlog | ⟨e, -, he, hlog⟩ := hlog
    · exact ⟨[], by simpa using hlog, Or.inr ⟨rfl, hstate⟩⟩
    · exact ⟨[e], hlog, Or.inr ⟨written_quiet he, hstate⟩⟩

theorem SeenSince.step (hseen : SeenSince d₀ d states) (h : Effect m i answer d v d' v') :
    SeenSince d₀ d' states := by
  obtain ⟨l, hlog, -⟩ := h.written
  exact hseen.append hlog

/-- A state is seen for the first time only when it is the state. -/
theorem SeenSince.of_step (hseen : SeenSince d₀ d' states) (hd : Follows d₀ d)
    (h : Effect m i answer d v d' v') : SeenSince d₀ d states ∨ d'.state ∈ states := by
  obtain ⟨l, hlog, hw⟩ := h.written
  obtain hseen | ⟨new, hnew, hmem⟩ := (seenSince_append_iff hd.log hlog).mp hseen
  · exact Or.inl hseen
  · obtain hw | ⟨hw, -⟩ := hw
    · rw [hw, List.mem_singleton] at hmem
      exact Or.inr (hmem ▸ hnew)
    · simp [hw] at hmem

theorem Follows.step (hd : Follows d₀ d) (h : Effect m i answer d v d' v') : Follows d₀ d' := by
  obtain ⟨l, hlog, hw⟩ := h.written
  refine ⟨hd.log.trans ⟨l, hlog.symm⟩, fun s hs => ?_⟩
  obtain hw | ⟨-, hstate⟩ := hw
  · exact (seenSince_append_iff hd.log hlog).mpr (Or.inr ⟨_, hs, by simp [hw]⟩)
  · exact (hd.seen s (hstate ▸ hs)).append hlog

end Follows

/-! ### Stale events -/

namespace AwaitPoint

/-- Whether the call has not ended. -/
def inFlight : AwaitPoint → Bool
  | returned => false
  | interrupted => false
  | _ => true

/-- Whether the call has found its state, or was woken by its latch. -/
def served : AwaitPoint → Bool
  | satisfied => true
  | removing b => !b
  | returned => true
  | _ => false

end AwaitPoint

/-- Call `i` is inside `awaitAnyOfStates`. -/
def Awaits (c : DescriptorConfig ι ρ) (i : ι) : Bool :=
  match c.thread i with
  | .running (.awaitAnyOfStates _ p) => p.inFlight
  | _ => false

/-- Call `j` has compared and set the state outside the monitor, and is about to wake call `i` for
a state that the descriptor has not been in since it was `d₀`. -/
def WakesStale (d₀ : ApplicationDescriptor ι ρ) (i : ι) (states : List ApplicationState)
    (c : DescriptorConfig ι ρ) (j : ι) : Prop :=
  ∃ old new, (c.thread j).view = ⟨false, .pending old new⟩ ∧ old ≠ new ∧ new ∈ states ∧
    (c.thread i).view.stage = .listening states ∧ ¬ SeenSince d₀ c.shared states

/-- Whether the writer of an operation holds the monitor from its swap to its event. -/
def Operation.firesInside : Operation → Bool
  | setApplicationState _ | deploy | kill | autoDeployScan | autoKillScan => true
  | _ => false

theorem Call.inside_of_pending {k : Call ρ} {old new : ApplicationState}
    (h : k.view.stage = .pending old new) : k.view.inside = k.operation.firesInside := by
  cases k with
  | awaitAnyOfStates states p => cases p <;> cases h
  | setApplicationState new p => cases p <;> first | rfl | cases h
  | compareAndSetApplicationState expect new p => rfl
  | deploy p => rcases p with _ | _ | (_ | _ | _ | _ | _) | _ <;> first | rfl | cases h
  | kill p => rcases p with _ | (_ | _ | _ | _ | _) | _ <;> first | rfl | cases h
  | statusScan p => rcases p with (_ | _ | _ | _) | _ | _ <;> first | rfl | cases h
  | autoDeployScan p =>
    rcases p with _ | (_ | _ | (_ | _ | _ | _ | _) | _) | _ <;> first | rfl | cases h
  | autoKillScan p => rcases p with _ | (_ | (_ | _ | _ | _ | _) | _) | _ <;> first | rfl | cases h

/-! ### Latches -/

/-- Call `i` listens for `states`, or has ended. -/
def Listens (s : Stage ρ) (states : List ApplicationState) : Prop :=
  s = .listening states ∨ s = .ended

/-- What holds of the latch of call `i`: its listener is registered while the call listens, it waits
for what the call waits for, and the latch is not counted down before the listener is added. -/
structure Latched (i : ι) (d : ApplicationDescriptor ι ρ) (v : View ρ) : Prop where
  listening : ∀ states, v.stage = .listening states → ⟨i, states⟩ ∈ d.stateChangeListeners
  registered : ∀ l ∈ d.stateChangeListeners, l.owner = i → Listens v.stage l.states
  countedDown : i ∈ d.countedDown → ∃ states, Listens v.stage states

section Latched

variable [DecidableEq ι] [DecidableEq ρ] {m : AbstractApplicationManager ρ η} {i : ι}
  {P : DescriptorConfig ι ρ → ι × Answer η → Prop} {c : DescriptorConfig ι ρ}

omit [DecidableEq ι] [DecidableEq ρ] in
theorem mem_latchesMatching {d : ApplicationDescriptor ι ρ} {new : ApplicationState} :
    i ∈ d.latchesMatching new ↔
      ∃ l ∈ d.stateChangeListeners, l.owner = i ∧ new ∈ l.states := by
  simp only [latchesMatching, List.mem_map, List.mem_filter, ArrayUtil.contains_iff]
  constructor
  · rintro ⟨l, ⟨hl, hnew⟩, rfl⟩
    exact ⟨l, hl, rfl, hnew⟩
  · rintro ⟨l, hl, rfl, hnew⟩
    exact ⟨l, ⟨hl, hnew⟩, rfl⟩

omit [DecidableEq ι] [DecidableEq ρ] in
/-- Only the event of another value than before counts a latch down, and only that of a listener
that waits for the value. -/
theorem mem_countedDown_fire {d : ApplicationDescriptor ι ρ} {j : ι} {old new : ApplicationState} :
    i ∈ (d.firePropertyChange j old new).countedDown ↔ i ∈ d.countedDown ∨
      (old ≠ new ∧ ∃ l ∈ d.stateChangeListeners, l.owner = i ∧ new ∈ l.states) := by
  rw [firePropertyChange_countedDown, ← mem_latchesMatching]
  by_cases h : old = new
  · simp [h]
  · simp [h]

theorem latched_of_reachable (h : (descriptorMachine ι m).ReachableOf P c) (i : ι) :
    Latched i c.shared (c.thread i).view := by
  refine (descriptor_invariant (G := fun _ => True) (A := Latched) h ?_ ?_ ?_).2 i
  · refine ⟨trivial, fun i o => ⟨fun states hs => ?_, by simp, by simp⟩⟩
    obtain hstart | ⟨expect, new, hstart⟩ := o.view_start (ρ := ρ) <;> rw [hstart] at hs <;>
      cases hs
  · intro c i e c' d' v v' _ _ hA _ _ _ hv heff
    have hi := hA i
    rw [hv] at hi
    refine ⟨trivial, ?_⟩
    cases heff with
    | enter | leave | stay => exact ⟨hi.listening, hi.registered, hi.countedDown⟩
    | listen =>
      have hnone : ∀ l ∈ c.shared.stateChangeListeners, l.owner ≠ i := fun l hl hli => by
        obtain h | h := hi.registered l hl hli <;> cases h
      refine ⟨fun states hs => ?_, fun l hl hli => ?_, fun hmem => ?_⟩
      · obtain rfl := Stage.listening.inj hs
        simp
      · obtain hl | rfl := List.mem_append.mp hl |>.imp_right List.mem_singleton.mp
        · exact absurd hli (hnone l hl)
        · exact Or.inl rfl
      · obtain ⟨states, h | h⟩ := hi.countedDown hmem <;> cases h
    | satisfy | wake | unlisten | fail | failEnding | skip | fire =>
      exact ⟨by rintro states ⟨⟩, fun l _ _ => Or.inr rfl, fun _ => ⟨[], Or.inr rfl⟩⟩
    | _ =>
      -- the call has not listened yet
      refine ⟨by rintro states ⟨⟩, fun l hl hli => ?_, fun hmem => ?_⟩
      · obtain h | h := hi.registered l hl hli <;> cases h
      · obtain ⟨states, h | h⟩ := hi.countedDown hmem <;> cases h
  · intro c j e c' d' v v' i _ _ hA _ _ _ _ heff hij
    have hi := hA i
    have hlistening : ∀ states, (c.thread i).view.stage = .listening states →
        ⟨i, states⟩ ∈ d'.stateChangeListeners := fun states hs =>
      heff.mem_stateChangeListeners (hi.listening states hs) hij
    cases heff with
    | fire =>
      refine ⟨hlistening, hi.registered, fun hmem => ?_⟩
      obtain hmem | ⟨-, l, hl, hli, -⟩ := mem_countedDown_fire.mp hmem
      · exact hi.countedDown hmem
      · exact ⟨l.states, hi.registered l hl hli⟩
    | listen =>
      refine ⟨hlistening, fun l hl hli => ?_, hi.countedDown⟩
      obtain hl | rfl := List.mem_append.mp hl |>.imp_right List.mem_singleton.mp
      · exact hi.registered l hl hli
      · exact absurd hli hij.symm
    | unlisten =>
      exact ⟨hlistening, fun l hl => hi.registered l (List.mem_of_mem_erase hl), hi.countedDown⟩
    | _ => exact ⟨hlistening, hi.registered, hi.countedDown⟩

end Latched

/-! ### Awaiters -/

/-- What holds of an awaiter that has seen no state in `states`, if no step wakes it for a stale
event. -/
structure Unserved (d₀ : ApplicationDescriptor ι ρ) (i : ι) (states : List ApplicationState)
    (c : DescriptorConfig ι ρ) : Prop where
  operation : c.thread i = .ready (.awaitAnyOfStates states) ∨
    ∃ p, c.thread i = .running (.awaitAnyOfStates states p)
  /-- A writer inside the monitor has swapped after the listener was added. -/
  pending : (c.thread i).view.stage = .listening states → ∀ j old new,
    (c.thread j).view = ⟨true, .pending old new⟩ → new ∈ states → SeenSince d₀ c.shared states
  latch : (c.thread i).view.stage = .listening states → i ∉ c.shared.countedDown
  served : ∀ p, c.thread i = .running (.awaitAnyOfStates states p) → p.served = false

section Unserved

variable [DecidableEq ι] [DecidableEq ρ] {m : AbstractApplicationManager ρ η} {i j : ι}
  {c c' : DescriptorConfig ι ρ} {d₀ : ApplicationDescriptor ι ρ}
  {states : List ApplicationState} {e : Answer η}

/-- Entering the monitor between swap and event happens in no call. -/
theorem inside_of_pending_step {old new old' new' : ApplicationState}
    (hs : (descriptorMachine ι m).step c (j, e) = some c') {k : ι}
    (h : (c.thread k).view.stage = .pending old new)
    (h' : (c'.thread k).view.stage = .pending old' new') :
    (c'.thread k).view.inside = (c.thread k).view.inside := by
  have hop := Interleaving.opOf_step (L := calls ι m) hs k
  cases hk : c.thread k with
  | ready o =>
    rw [hk] at h
    cases o <;> cases h
  | running x =>
    cases hk' : c'.thread k with
    | ready o =>
      rw [hk'] at h'
      cases o <;> cases h'
    | running x' =>
      rw [hk] at h
      rw [hk'] at h'
      rw [hk, hk'] at hop
      have hop : x'.operation = x.operation := hop
      rw [Thread.view_running, Thread.view_running, Call.inside_of_pending h,
        Call.inside_of_pending h', hop]

omit [DecidableEq ι] [DecidableEq ρ] in
theorem Unserved.awaits_of_listening (h : Unserved d₀ i states c)
    (hs : (c.thread i).view.stage = .listening states) : Awaits c i = true := by
  obtain hi | ⟨p, hi⟩ := h.operation
  · rw [hi] at hs
    cases hs
  · rw [hi] at hs
    rw [Awaits, hi]
    cases p <;> first | rfl | cases hs

omit [DecidableEq ι] [DecidableEq ρ] in
/-- The assertion, from what it says at the awaiter's control point. -/
theorem unserved_of_point {p : AwaitPoint} (hi : c.thread i = .running (.awaitAnyOfStates states p))
    (hserved : p.served = false)
    (hpending : (p.view states : View ρ).stage = .listening states → ∀ j old new,
      (c.thread j).view = ⟨true, .pending old new⟩ → new ∈ states → SeenSince d₀ c.shared states)
    (hlatch : (p.view states : View ρ).stage = .listening states → i ∉ c.shared.countedDown) :
    Unserved d₀ i states c := by
  have hview : (c.thread i).view = p.view states := by rw [hi]; rfl
  refine ⟨Or.inr ⟨p, hi⟩, hview ▸ hpending, hview ▸ hlatch, fun q hq => ?_⟩
  rw [hi] at hq
  obtain rfl : p = q := by simpa using hq
  exact hserved

omit [DecidableEq ι] [DecidableEq ρ] in
theorem unserved_of_not_listening {p : AwaitPoint}
    (hi : c.thread i = .running (.awaitAnyOfStates states p))
    (hp : (p.view states : View ρ).stage ≠ .listening states) (hserved : p.served = false) :
    Unserved d₀ i states c :=
  unserved_of_point hi hserved (fun h => absurd h hp) fun h => absurd h hp

omit [DecidableEq ι] [DecidableEq ρ] in
/-- An awaiter that has not begun. -/
theorem unserved_of_ready (hi : c.thread i = .ready (.awaitAnyOfStates states)) :
    Unserved d₀ i states c := by
  refine ⟨Or.inl hi, ?_, ?_, ?_⟩
  · rw [hi]
    rintro ⟨⟩
  · rw [hi]
    rintro ⟨⟩
  · rw [hi]
    rintro p ⟨⟩

/-- A step of the awaiter itself. -/
theorem Unserved.step_self (h : Unserved d₀ i states c)
    (hr : (descriptorMachine ι m).Reachable c) (hr' : (descriptorMachine ι m).Reachable c')
    (hd : Follows d₀ c.shared)
    (hseen : Awaits c i = true → ¬ SeenSince d₀ c.shared states)
    (hs : (descriptorMachine ι m).step c (i, e) = some c') : Unserved d₀ i states c' := by
  have hother : ∀ k, k ≠ i → c'.thread k = c.thread k :=
    fun k hk => Interleaving.thread_step_of_ne hs hk
  obtain ⟨o, ho, hc'⟩ | ⟨k, d', k', hk, hn, hc'⟩ := Interleaving.step_cases hs
  · obtain hi | ⟨p, hi⟩ := h.operation
    · obtain rfl := Thread.ready.inj (ho.symm.trans hi)
      exact unserved_of_not_listening (p := .entry) (by simp [hc', Operation.start]) (by rintro ⟨⟩)
        rfl
    · cases ho.symm.trans hi
  · obtain hi | ⟨p, hi⟩ := h.operation
    · cases hk.symm.trans hi
    obtain rfl := Thread.running.inj (hk.symm.trans hi)
    obtain ⟨⟨d₁, p'⟩, hp, hr₁⟩ := Option.map_eq_some_iff.mp hn
    obtain ⟨rfl, rfl⟩ := Prod.mk.inj hr₁
    have hi' : c'.thread i = .running (.awaitAnyOfStates states p') := by simp [hc']
    have hshared : c'.shared = d₁ := by rw [hc']
    cases p with
    | entry =>
      obtain ⟨d₂, -, hp⟩ := Option.map_eq_some_iff.mp hp
      obtain ⟨rfl, rfl⟩ := Prod.mk.inj hp
      exact unserved_of_not_listening hi' (by rintro ⟨⟩) rfl
    | locked =>
      obtain ⟨rfl, rfl⟩ := Prod.mk.inj (Option.some.inj hp)
      cases hin : c.shared.isInAnyOfStates states with
      | true =>
        have hstate : c.shared.state ∈ states := ArrayUtil.contains_iff.mp hin
        exact absurd (hd.seen states hstate) (hseen (by rw [Awaits, hi]; rfl))
      | false =>
        rw [hin] at hi'
        exact unserved_of_not_listening hi' (by rintro ⟨⟩) rfl
    | checked =>
      obtain ⟨rfl, rfl⟩ := Prod.mk.inj (Option.some.inj hp)
      refine unserved_of_point hi' rfl (fun _ j old new hj => ?_) fun _ hmem => ?_
      · -- the awaiter is inside the monitor, and no other call is
        have hmon := monitor_eq_of_inside hr' j (by rw [hj])
        rw [monitor_eq_of_inside hr' i (by rw [hi']; rfl)] at hmon
        obtain rfl := Option.some.inj hmon
        rw [hi'] at hj
        cases hj
      · rw [hshared] at hmem
        obtain ⟨s, hl⟩ := (latched_of_reachable hr i).countedDown hmem
        rw [hi] at hl
        obtain hl | hl := hl <;> cases hl
    | added =>
      obtain ⟨rfl, rfl⟩ := Prod.mk.inj (Option.some.inj hp)
      have hlisten : (c.thread i).view.stage = .listening states := by rw [hi]; rfl
      refine unserved_of_point hi' rfl (fun _ j old new hj hnew => ?_) fun _ hmem => ?_
      · rw [hshared]
        refine h.pending hlisten j old new ?_ hnew
        by_cases hji : j = i
        · rw [hji, hi'] at hj
          cases hj
        · rwa [← hother j hji]
      · rw [hshared] at hmem
        exact h.latch hlisten hmem
    | satisfied =>
      obtain ⟨rfl, rfl⟩ := Prod.mk.inj (Option.some.inj hp)
      cases h.served _ hi
    | waiting =>
      simp only [awaitAnyOfStates] at hp
      split at hp
      · obtain ⟨rfl, rfl⟩ := Prod.mk.inj (Option.some.inj hp)
        exact unserved_of_not_listening hi' (by rintro ⟨⟩) rfl
      · obtain ⟨hmem, -⟩ := Option.ite_none_right_eq_some.mp hp
        exact absurd hmem (h.latch (by rw [hi]; rfl))
    | removing b =>
      obtain ⟨rfl, rfl⟩ := Prod.mk.inj (Option.some.inj hp)
      cases b with
      | false => cases h.served _ hi
      | true => exact unserved_of_not_listening hi' (by rintro ⟨⟩) rfl
    | returned => cases hp
    | interrupted => cases hp

omit [DecidableEq ι] [DecidableEq ρ] in
theorem Stage.eq_of_listens {s : Stage ρ} {states' : List ApplicationState}
    (hs : s = .listening states) (h : Listens s states') : states' = states := by
  subst hs
  obtain h | h := h <;> cases h
  rfl

/-- A swap that is yet to be announced has just been made, or was to be announced before. -/
theorem Effect.of_pending {d d' : ApplicationDescriptor ι ρ} {v v' : View ρ}
    {old new : ApplicationState} (h : Effect m i e d v d' v') (hv : v'.stage = .pending old new) :
    v.stage = .pending old new ∨ d'.state = new := by
  cases h with
  | enter | leave | stay => exact Or.inl hv
  | swap | compareAndSwap =>
    obtain ⟨-, rfl⟩ := Stage.pending.inj hv
    exact Or.inr rfl
  | _ => cases hv

/-- A step of another call. -/
theorem Unserved.step_other (h : Unserved d₀ i states c)
    (hr : (descriptorMachine ι m).Reachable c) (hd : Follows d₀ c.shared)
    (hseen : Awaits c i = true → ¬ SeenSince d₀ c.shared states)
    (hP : ¬ WakesStale d₀ i states c j) (hij : i ≠ j)
    (hs : (descriptorMachine ι m).step c (j, e) = some c') : Unserved d₀ i states c' := by
  have heff := effect_of_step hs
  have hi : c'.thread i = c.thread i := Interleaving.thread_step_of_ne hs hij
  refine ⟨hi ▸ h.operation, fun hlisten k old new hk hnew => ?_, fun hlisten hmem => ?_,
    hi ▸ h.served⟩
  · rw [hi] at hlisten
    by_cases hkj : k = j
    · subst hkj
      have hk' : (c'.thread k).view.stage = .pending old new := by rw [hk]
      obtain hpend | hstate := heff.of_pending hk'
      · have hinside : (c.thread k).view.inside = true := by
          rw [← inside_of_pending_step hs hpend hk', hk]
        have hview : (c.thread k).view = ⟨true, .pending old new⟩ := by rw [← hpend, ← hinside]
        exact (h.pending hlisten k old new hview hnew).step heff
      · exact (hd.step heff).seen states (hstate ▸ hnew)
    · rw [Interleaving.thread_step_of_ne hs hkj] at hk
      exact (h.pending hlisten k old new hk hnew).step heff
  · rw [hi] at hlisten
    have hnot := hseen (h.awaits_of_listening hlisten)
    obtain ⟨b, expect, new, hv, hd', -⟩ | ⟨b, old, new, hv, hd', -⟩ | ⟨-, hcounted, -⟩ :=
      heff.swap_or_fire_or_quiet
    · rw [hd'] at hmem
      exact h.latch hlisten hmem
    · rw [hd', mem_countedDown_fire] at hmem
      obtain hmem | ⟨hne, l, hl, hli, hnew⟩ := hmem
      · exact h.latch hlisten hmem
      · rw [Stage.eq_of_listens hlisten ((latched_of_reachable hr i).registered l hl hli)] at hnew
        cases b with
        | true => exact hnot (h.pending hlisten j old new hv hnew)
        | false => exact hP ⟨old, new, hv, hne, hnew, hlisten, hnot⟩
    · rw [hcounted] at hmem
      exact h.latch hlisten hmem

/-- **What a step preserves.** An awaiter is not served without having seen its state, unless by a
stale event. -/
theorem Unserved.step (h : Unserved d₀ i states c)
    (hr : (descriptorMachine ι m).Reachable c) (hd : Follows d₀ c.shared)
    (hseen : Awaits c i = true → ¬ SeenSince d₀ c.shared states)
    (hP : ¬ WakesStale d₀ i states c j)
    (hs : (descriptorMachine ι m).step c (j, e) = some c') : Unserved d₀ i states c' := by
  by_cases hij : i = j
  · subst hij
    obtain ⟨s₀, h₀, hrun⟩ := hr
    exact h.step_self ⟨s₀, h₀, hrun⟩ ⟨s₀, h₀, hrun.tail trivial hs⟩ hd hseen hs
  · exact h.step_other hr hd hseen hP hij hs

end Unserved

/-! ### One descriptor -/

section Descriptor

variable [DecidableEq ι] [DecidableEq ρ] {m : AbstractApplicationManager ρ η} {i j : ι}
  {c₀ c c' : DescriptorConfig ι ρ} {states : List ApplicationState} {e : Answer η}

/-- Call `i` is in progress, and the state is in `states`. -/
def SeesNow (i : ι) (states : List ApplicationState) (c : DescriptorConfig ι ρ) : Prop :=
  Awaits c i = true ∧ c.shared.state ∈ states

instance (i : ι) (states : List ApplicationState) (c : DescriptorConfig ι ρ) :
    Decidable (SeesNow i states c) :=
  inferInstanceAs (Decidable (_ ∧ _))

/-- A call in progress was so before, if it had begun. -/
theorem Unserved.awaits_of_step {d₀ : ApplicationDescriptor ι ρ} (h : Unserved d₀ i states c)
    (hbegun : ∀ o, c.thread i ≠ .ready o)
    (hs : (descriptorMachine ι m).step c (j, e) = some c') (haw : Awaits c' i = true) :
    Awaits c i = true := by
  by_cases hij : i = j
  · subst hij
    obtain ⟨o, ho, -⟩ | ⟨k, d', k', hk, hn, -⟩ := Interleaving.step_cases hs
    · exact absurd ho (hbegun o)
    · obtain hi | ⟨p, hi⟩ := h.operation
      · exact absurd hi (hbegun _)
      · obtain rfl := Thread.running.inj (hk.symm.trans hi)
        obtain ⟨⟨d₁, p'⟩, hp, -⟩ := Option.map_eq_some_iff.mp hn
        rw [Awaits, hi]
        cases p <;> first | rfl | cases hp
  · rw [Awaits, Interleaving.thread_step_of_ne hs hij] at haw
    exact haw

/-- What holds of call `i` along a run on which it sees no state in `states`. -/
structure Unseeing (d₀ : ApplicationDescriptor ι ρ) (i : ι) (states : List ApplicationState)
    (c : DescriptorConfig ι ρ) : Prop where
  follows : Follows d₀ c.shared
  begun : ∀ o, c.thread i ≠ .ready o
  seen : Awaits c i = true → SeenSince d₀ c.shared states → c.shared.state ∈ states
  unserved : Unserved d₀ i states c

theorem unseeing_of_run (hr : (descriptorMachine ι m).Reachable c₀)
    (hi : c₀.thread i = .running (.awaitAnyOfStates states .entry))
    (h : (descriptorMachine ι m).RunOf
      (fun c a => ¬ WakesStale c₀.shared i states c a.1 ∧ ¬ SeesNow i states c) c₀ c) :
    Unseeing c₀.shared i states c := by
  refine h.invariant (I := Unseeing c₀.shared i states) ?_ ?_
  · refine ⟨Follows.refl, by simp [hi], fun _ hseen => ?_, ?_⟩
    · obtain hseen | ⟨new, -, hmem⟩ := hseen
      · exact hseen
      · simp at hmem
    · exact unserved_of_not_listening hi (by rintro ⟨⟩) rfl
  · rintro c ⟨j, e⟩ c' hrun hc ⟨hP, hnot⟩ hs
    have heff := effect_of_step hs
    have hunseen : Awaits c i = true → ¬ SeenSince c₀.shared c.shared states :=
      fun haw hseen => hnot ⟨haw, hc.seen haw hseen⟩
    refine ⟨hc.follows.step heff, Interleaving.thread_step_ne_ready hs hc.begun,
      fun haw hseen => ?_, hc.unserved.step (hr.trans hrun.run) hc.follows hunseen hP hs⟩
    obtain hseen | hstate := hseen.of_step hc.follows heff
    · exact absurd hseen (hunseen (hc.unserved.awaits_of_step hc.begun hs haw))
    · exact hstate

/-- A run on which call `i` sees no state in `states` does not get to its return. -/
theorem runsThrough_of_returned (hr : (descriptorMachine ι m).Reachable c₀)
    (hi : c₀.thread i = .running (.awaitAnyOfStates states .entry))
    (hreturned : c.thread i = .running (.awaitAnyOfStates states .returned)) :
    (descriptorMachine ι m).RunsThrough (fun c a => ¬ WakesStale c₀.shared i states c a.1)
      (SeesNow i states) c₀ c := by
  intro h
  have hserved := (unseeing_of_run hr hi h).unserved.served _ hreturned
  cases hserved

omit [DecidableEq ι] [DecidableEq ρ] in
/-- Only an awaiter listens. -/
theorem exists_point_of_listening (h : (c.thread i).view.stage = .listening states) :
    c.thread i = .running (.awaitAnyOfStates states .added) ∨
      c.thread i = .running (.awaitAnyOfStates states .waiting) := by
  cases hi : c.thread i with
  | ready o =>
    rw [hi] at h
    cases o <;> cases h
  | running k =>
    rw [hi] at h
    cases k with
    | awaitAnyOfStates states p => cases p <;> cases h <;> simp
    | setApplicationState new p => cases p <;> cases h
    | compareAndSetApplicationState expect new p => cases p <;> cases h
    | deploy p => rcases p with _ | _ | (_ | _ | _ | _ | _) | _ <;> cases h
    | kill p => rcases p with _ | (_ | _ | _ | _ | _) | _ <;> cases h
    | statusScan p => rcases p with _ | ⟨_, _, _ | _ | _⟩ | _ <;> cases h
    | autoDeployScan p => rcases p with _ | (_ | _ | (_ | _ | _ | _ | _) | _) | _ <;> cases h
    | autoKillScan p => rcases p with _ | (_ | (_ | _ | _ | _ | _) | _) | _ <;> cases h

/-- A call that has compared and set the state can fire its event at once. -/
theorem exists_fire_of_pending {old new : ApplicationState}
    (h : (c.thread j).view = ⟨false, .pending old new⟩) :
    ∃ c', (descriptorMachine ι m).step c (j, .go) = some c' ∧
      c'.shared = c.shared.firePropertyChange j old new := by
  have hstep : ∀ k k' : Call ρ, c.thread j = .running k →
      k.next m j .go c.shared = some (c.shared.firePropertyChange j old new, k') →
      ∃ c', (descriptorMachine ι m).step c (j, .go) = some c' ∧
        c'.shared = c.shared.firePropertyChange j old new :=
    fun k k' hk hn => ⟨_, Interleaving.step_running (L := calls ι m) hk hn, rfl⟩
  cases hj : c.thread j with
  | ready o =>
    rw [hj] at h
    cases o <;> cases h
  | running k =>
    rw [hj] at h
    have hstage : k.view.stage = .pending old new := congrArg View.stage h
    have hinside : k.view.inside = false := congrArg View.inside h
    cases k with
    | compareAndSetApplicationState expect new p =>
      cases p <;> cases hstage
      exact hstep _ _ hj rfl
    | statusScan p =>
      rcases p with _ | ⟨_, _, _ | _ | _⟩ | _ <;> cases hstage
      exact hstep _ _ hj rfl
    | awaitAnyOfStates states p => cases p <;> cases hstage
    | _ =>
      -- the others are inside the monitor
      rw [Call.inside_of_pending hstage] at hinside
      cases hinside

/-- An awaiter whose latch is counted down can return, whatever the state is. -/
theorem exists_run_of_countedDown (hi : (c.thread i).view.stage = .listening states)
    (hmem : i ∈ c.shared.countedDown) (hstate : c.shared.state ∉ states) :
    ∃ c', (descriptorMachine ι m).RunOf (fun p _ => p.shared.state ∉ states) c c' ∧
      c'.thread i = .running (.awaitAnyOfStates states .returned) := by
  have hwaiting : ∀ c : DescriptorConfig ι ρ,
      c.thread i = .running (.awaitAnyOfStates states .waiting) → i ∈ c.shared.countedDown →
      c.shared.state ∉ states →
      ∃ c', (descriptorMachine ι m).RunOf (fun p _ => p.shared.state ∉ states) c c' ∧
        c'.thread i = .running (.awaitAnyOfStates states .returned) := by
    intro c hi hmem hstate
    have hwake : (Call.awaitAnyOfStates states .waiting : Call ρ).next m i .go c.shared =
        some (c.shared, .awaitAnyOfStates states (.removing false)) := by
      simp [Call.next, awaitAnyOfStates, hmem]
    refine ⟨_, Machine.RunOf.head (a := (i, .go)) hstate
      (Interleaving.step_running (L := calls ι m) hi hwake)
      (Machine.RunOf.head (a := (i, .go)) hstate
        (Interleaving.step_running (L := calls ι m)
          (k := .awaitAnyOfStates states (.removing false)) (by simp) rfl)
        Machine.RunOf.refl), by simp⟩
  obtain hi | hi := exists_point_of_listening hi
  · obtain ⟨c', hr, hc'⟩ := hwaiting
      ⟨c.shared.leave, Function.update c.thread i
        (.running (.awaitAnyOfStates states .waiting))⟩ (by simp) hmem hstate
    exact ⟨c', hr.head (a := (i, .go)) hstate (Interleaving.step_running (L := calls ι m) hi rfl),
      hc'⟩
  · exact hwaiting c hi hmem hstate

/-- **Every stale event can do harm.** The awaiter it wakes can go on to its return, and the state
is in none of `states` all the while. -/
theorem exists_unseen_of_wakesStale {d₀ : ApplicationDescriptor ι ρ}
    (hr : (descriptorMachine ι m).Reachable c) (hd : Follows d₀ c.shared)
    (h : WakesStale d₀ i states c j) :
    ∃ c', (descriptorMachine ι m).RunOf (fun p _ => p.shared.state ∉ states) c c' ∧
      c'.thread i = .running (.awaitAnyOfStates states .returned) := by
  obtain ⟨old, new, hj, hne, hnew, hlisten, hnot⟩ := h
  have hstate : c.shared.state ∉ states := fun hin => hnot (hd.seen states hin)
  obtain ⟨c₁, hs, hc₁⟩ := exists_fire_of_pending (m := m) hj
  have hij : i ≠ j := by
    rintro rfl
    rw [hj] at hlisten
    cases hlisten
  have hlisten₁ : (c₁.thread i).view.stage = .listening states := by
    rwa [Interleaving.thread_step_of_ne hs hij]
  have hmem : i ∈ c₁.shared.countedDown := by
    rw [hc₁, mem_countedDown_fire]
    exact Or.inr ⟨hne, _, (latched_of_reachable hr i).listening states hlisten, rfl, hnew⟩
  obtain ⟨c', hrun, hc'⟩ := exists_run_of_countedDown (m := m) hlisten₁ hmem (by rwa [hc₁])
  exact ⟨c', hrun.head hstate hs, hc'⟩

end Descriptor

/-! ### A state that has passed -/

section Example

/-- Call `0` waits for `RUNNING`, call `1` compares `UNKNOWN` and sets `RUNNING`, and the others set
`KILLED` (call `2`) or `RUNNING`. -/
def awaiterAndWriters : DescriptorConfig Nat Unit where
  shared := .new
  thread i := .ready
    (if i = 0 then .awaitAnyOfStates [.running]
      else if i = 1 then .compareAndSetApplicationState .unknown .running
      else .setApplicationState (if i = 2 then .killed else .running))

theorem awaiterAndWriters_init :
    (descriptorMachine Nat (.unconstrained Unit)).init awaiterAndWriters :=
  ⟨rfl, fun _ => ⟨_, rfl⟩⟩

/-- Call `i` takes `n` steps. -/
def steps (i n : Nat) : List (Nat × Answer (Except Throwable Unit)) := List.replicate n (i, .go)

/-- Call `0` is at the given control point. -/
def AwaiterAt (p : AwaitPoint) (c : DescriptorConfig Nat Unit) : Bool :=
  c.thread 0 = .running (.awaitAnyOfStates [.running] p)

/-- The state is set to `RUNNING` and then to `KILLED` before call `0` begins; the event of the
first write wakes it. -/
theorem exists_returned_unseen :
    ∃ c₀ c, (descriptorMachine Nat (.unconstrained Unit)).Reachable c₀ ∧
      c₀.thread 0 = .running (.awaitAnyOfStates [.running] .entry) ∧
      c.thread 0 = .running (.awaitAnyOfStates [.running] .returned) ∧
      ¬ (descriptorMachine Nat (.unconstrained Unit)).RunsThrough (fun _ _ => True)
        (SeesNow 0 [.running]) c₀ c := by
  obtain ⟨c₀, c, hr, hrun, hc⟩ :=
    (descriptorMachine Nat (.unconstrained Unit)).exists_run_runOf_of_execOf
      (fun c _ => True ∧ ¬ SeesNow 0 [.running] c) awaiterAndWriters
      (steps 1 2 ++ steps 2 5 ++ steps 0 1) (steps 0 4 ++ steps 1 1 ++ steps 0 2)
      (fun c₀ c => AwaiterAt .entry c₀ && AwaiterAt .returned c) (by decide)
  obtain ⟨hentry, hreturned⟩ := Bool.and_eq_true_iff.mp hc
  exact ⟨c₀, c, ⟨_, awaiterAndWriters_init, hr⟩, of_decide_eq_true hentry,
    of_decide_eq_true hreturned, fun h => h hrun⟩

end Example

end Shabdiz
