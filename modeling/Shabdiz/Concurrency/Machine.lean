import Mathlib.Logic.Function.Basic
import Mathlib.Logic.Relation
import Mathlib.Order.WellFounded

/-!
# Machines and their runs

A machine takes one atomic step at a time. Its step is a *function*: everything a step leaves
open (which thread moves, what a remote party answers) is part of the action, so a run is a list
of actions and can be evaluated.

Runs come with a condition on their steps. `RunOf P` is a run every step of which meets `P` in
the state it starts from, and `Run` is the unconditional case. A theorem about all runs and a
theorem about the runs that avoid one bad schedule are then two instances of one rule,
`RunOf.invariant`.

## Main definitions

* `Machine` — initial states and a partial step function
* `Machine.RunOf`, `Machine.Run` — runs whose steps all meet a condition, and all runs
* `Machine.RunsThrough` — what a run cannot go without
* `Machine.ReachableOf`, `Machine.Reachable` — the states these runs reach
* `Machine.execOf`, `Machine.exec` — a run computed from its list of actions
* `Machine.Inevitable` — what no way of going on avoids
* `Machine.InevitableFor` — what the steps of one party come to, whatever the others do between
* `Machine.par`, `Machine.pi` — two machines, or one machine per index, moving independently

## Main results

* `Machine.RunOf.invariant`, `Machine.ReachableOf.invariant` — the induction over a run
* `Machine.runOf_of_execOf` — evaluating a list of actions yields a run
* `Machine.forall_eq_iff_execOf` — what stays the same along a run
* `Machine.inevitable_of_measure`, `Machine.inevitableFor_of_measure` — what comes closer with every
  step
* `Machine.RunOf.proj` — a run of a product projects to a run of each component
-/

namespace Shabdiz

/-- A machine: where it may start, and what one action does. `step s a` is `none` when `a` is
not enabled in `s`. -/
structure Machine (σ α : Type*) where
  /-- The states a run may start from. -/
  init : σ → Prop
  /-- The state after one action, if the action is enabled. -/
  step : σ → α → Option σ

namespace Machine

variable {σ α : Type*} {M : Machine σ α} {P Q : σ → α → Prop} {s t u : σ}

/-! ### Runs -/

/-- One step whose action meets `P` in the state it is taken from. -/
def StepOf (M : Machine σ α) (P : σ → α → Prop) (s t : σ) : Prop :=
  ∃ a, P s a ∧ M.step s a = some t

/-- A run every step of which meets `P`. -/
def RunOf (M : Machine σ α) (P : σ → α → Prop) : σ → σ → Prop :=
  Relation.ReflTransGen (M.StepOf P)

/-- A run, with no condition on its steps. -/
def Run (M : Machine σ α) : σ → σ → Prop := M.RunOf fun _ _ => True

/-- `s` is reached from an initial state by a run every step of which meets `P`. -/
def ReachableOf (M : Machine σ α) (P : σ → α → Prop) (s : σ) : Prop :=
  ∃ s₀, M.init s₀ ∧ M.RunOf P s₀ s

/-- `s` is reached by some run. -/
def Reachable (M : Machine σ α) (s : σ) : Prop := M.ReachableOf (fun _ _ => True) s

/-- Every run from `s` to `t` whose steps meet `P` takes one of its steps from a state in `Q`. -/
def RunsThrough (M : Machine σ α) (P : σ → α → Prop) (Q : σ → Prop) (s t : σ) : Prop :=
  ¬ M.RunOf (fun s a => P s a ∧ ¬ Q s) s t

theorem RunOf.refl : M.RunOf P s s := Relation.ReflTransGen.refl

theorem RunOf.tail {a : α} (h : M.RunOf P s t) (ha : P t a) (hs : M.step t a = some u) :
    M.RunOf P s u :=
  Relation.ReflTransGen.tail h ⟨a, ha, hs⟩

theorem RunOf.head {a : α} (ha : P s a) (hs : M.step s a = some t) (h : M.RunOf P t u) :
    M.RunOf P s u :=
  Relation.ReflTransGen.head ⟨a, ha, hs⟩ h

theorem RunOf.trans (h : M.RunOf P s t) (h' : M.RunOf P t u) : M.RunOf P s u :=
  Relation.ReflTransGen.trans h h'

theorem RunOf.mono (hPQ : ∀ s a, P s a → Q s a) (h : M.RunOf P s t) : M.RunOf Q s t :=
  Relation.ReflTransGen.mono (fun _ _ ⟨a, ha, hs⟩ => ⟨a, hPQ _ _ ha, hs⟩) _ _ h

theorem RunOf.run (h : M.RunOf P s t) : M.Run s t := h.mono fun _ _ _ => trivial

theorem ReachableOf.trans (hs : M.ReachableOf P s) (h : M.RunOf P s t) : M.ReachableOf P t :=
  let ⟨s₀, h₀, hr⟩ := hs
  ⟨s₀, h₀, hr.trans h⟩

theorem ReachableOf.reachable (hs : M.ReachableOf P s) : M.Reachable s :=
  let ⟨s₀, h₀, hr⟩ := hs
  ⟨s₀, h₀, hr.run⟩

/-! ### Invariants -/

/-- **The induction over a run.** What every step meeting `P` preserves, a run of such steps
preserves. The step may be assumed to start from a state that the run reaches. -/
theorem RunOf.invariant {I : σ → Prop} (h : M.RunOf P s t) (hs : I s)
    (hstep : ∀ u a v, M.RunOf P s u → I u → P u a → M.step u a = some v → I v) : I t := by
  induction h with
  | refl => exact hs
  | tail hr hst ih =>
    obtain ⟨a, ha, hst⟩ := hst
    exact hstep _ a _ hr ih ha hst

/-- What holds initially and is preserved by every step meeting `P` holds of every state the
runs of such steps reach. Invariants proved before may be used at the state a step starts from,
since it is reachable too. -/
theorem ReachableOf.invariant {I : σ → Prop} (h : M.ReachableOf P s)
    (hinit : ∀ s, M.init s → I s)
    (hstep : ∀ s a t, M.ReachableOf P s → I s → P s a → M.step s a = some t → I t) : I s := by
  obtain ⟨s₀, h₀, hr⟩ := h
  exact hr.invariant (hinit s₀ h₀) fun u a v hu => hstep u a v ⟨s₀, h₀, hu⟩

/-! ### Evaluating runs -/

/-- Perform a list of actions, stopping with `none` at the first that is not enabled or does not
meet `P`. -/
def execOf (M : Machine σ α) (P : σ → α → Prop) [∀ s a, Decidable (P s a)] :
    σ → List α → Option σ
  | s, [] => some s
  | s, a :: as => if P s a then (M.step s a).bind fun t => execOf M P t as else none

/-- Perform a list of actions. -/
def exec (M : Machine σ α) : σ → List α → Option σ := M.execOf fun _ _ => True

theorem runOf_of_execOf [∀ s a, Decidable (P s a)] {as : List α} (h : M.execOf P s as = some t) :
    M.RunOf P s t := by
  induction as generalizing s with
  | nil =>
    obtain rfl : s = t := by simpa [execOf] using h
    exact RunOf.refl
  | cons a as ih =>
    simp only [execOf] at h
    split at h
    · obtain ⟨u, hu, ht⟩ := Option.bind_eq_some_iff.mp h
      exact RunOf.head ‹P s a› hu (ih ht)
    · cases h

theorem run_of_exec {as : List α} (h : M.exec s as = some t) : M.Run s t := runOf_of_execOf h

theorem execOf_append [∀ s a, Decidable (P s a)] (as bs : List α) (s : σ) :
    M.execOf P s (as ++ bs) = (M.execOf P s as).bind fun t => M.execOf P t bs := by
  induction as generalizing s with
  | nil => rfl
  | cons a as ih =>
    simp only [List.cons_append, execOf]
    split
    · rw [Option.bind_assoc]
      exact congrArg _ (funext ih)
    · rfl

/-- Without the condition, the actions lead to the same state. -/
theorem exec_of_execOf [∀ s a, Decidable (P s a)] {as : List α} (h : M.execOf P s as = some t) :
    M.exec s as = some t := by
  induction as generalizing s with
  | nil => exact h
  | cons a as ih =>
    simp only [execOf] at h
    split at h
    · obtain ⟨u, hu, ht⟩ := Option.bind_eq_some_iff.mp h
      rw [exec, execOf, if_pos trivial, hu]
      exact ih ht
    · cases h

/-- A run found by evaluation, with a check on the state it ends in. -/
theorem exists_runOf_of_execOf (M : Machine σ α) (P : σ → α → Prop) [∀ s a, Decidable (P s a)]
    (s : σ) (as : List α) (p : σ → Bool) (h : (M.execOf P s as).any p = true) :
    ∃ t, M.RunOf P s t ∧ p t = true := by
  obtain ⟨t, ht, hp⟩ := (Option.any_eq_true _ _).mp h
  exact ⟨t, runOf_of_execOf ht, hp⟩

theorem exists_run_of_exec (M : Machine σ α) (s : σ) (as : List α) (p : σ → Bool)
    (h : (M.exec s as).any p = true) : ∃ t, M.Run s t ∧ p t = true :=
  M.exists_runOf_of_execOf _ s as p h

/-- Two runs found by evaluation, the second from where the first ends. -/
theorem exists_run_runOf_of_execOf (M : Machine σ α) (P : σ → α → Prop) [∀ s a, Decidable (P s a)]
    (s : σ) (as bs : List α) (p : σ → σ → Bool)
    (h : ((M.exec s as).any fun t => (M.execOf P t bs).any (p t)) = true) :
    ∃ t u, M.Run s t ∧ M.RunOf P t u ∧ p t u = true := by
  obtain ⟨t, ht, hu⟩ := (Option.any_eq_true _ _).mp h
  obtain ⟨u, hu, hp⟩ := (Option.any_eq_true _ _).mp hu
  exact ⟨t, u, run_of_exec ht, runOf_of_execOf hu, hp⟩

theorem exists_run_run_of_exec (M : Machine σ α) (s : σ) (as bs : List α) (p : σ → σ → Bool)
    (h : ((M.exec s as).any fun t => (M.exec t bs).any (p t)) = true) :
    ∃ t u, M.Run s t ∧ M.Run t u ∧ p t u = true :=
  M.exists_run_runOf_of_execOf _ s as bs p h

/-- **What stays the same along a run.** If a step keeps a value exactly when it meets `P`, then the
value is the same after each of a list of actions exactly if all of them meet `P`. -/
theorem forall_eq_iff_execOf [∀ s a, Decidable (P s a)] {β : Type*} {f : σ → β}
    (hstep : ∀ s a t, M.step s a = some t → (f t = f s ↔ P s a)) {as : List α}
    (h : (M.exec s as).isSome = true) :
    (∀ done t, done <+: as → M.exec s done = some t → f t = f s) ↔
      (M.execOf P s as).isSome = true := by
  induction as generalizing s with
  | nil =>
    refine ⟨fun _ => rfl, fun _ done t hdone ht => ?_⟩
    obtain rfl := List.prefix_nil.mp hdone
    rw [Option.some.inj ht]
  | cons a as ih =>
    rw [exec, execOf, if_pos trivial] at h
    obtain ⟨u, hu⟩ : ∃ u, M.step s a = some u := by
      cases hu : M.step s a with
      | none => exact absurd h (by simp [hu])
      | some u => exact ⟨u, rfl⟩
    rw [hu] at h
    have hcons (done : List α) : M.exec s (a :: done) = M.exec u done := by
      rw [exec, execOf, if_pos trivial, hu]
      rfl
    constructor
    · intro hall
      have hus : f u = f s := hall [a] u ⟨as, rfl⟩ (hcons [])
      rw [execOf, if_pos ((hstep s a u hu).mp hus), hu]
      refine (ih h).mp fun done t hdone ht => ?_
      rw [hus]
      exact hall (a :: done) t ((List.prefix_cons_inj a).mpr hdone) ((hcons done).trans ht)
    · intro hkept done t hdone ht
      rw [execOf] at hkept
      split at hkept
      · next hP =>
        rw [hu] at hkept
        cases done with
        | nil => rw [Option.some.inj ht]
        | cons b done =>
          obtain ⟨rfl, hrest⟩ := List.cons_prefix_cons.mp hdone
          rw [← (hstep s b u hu).mpr hP]
          exact (ih h).mpr hkept done t hrest ((hcons done).symm.trans ht)
      · exact absurd hkept (by simp)

/-! ### Progress -/

/-- `Q` holds, or the machine can go on and `Q` is inevitable after every step it can take: however
the machine goes on, it comes to `Q` after finitely many steps. -/
inductive Inevitable (M : Machine σ α) (Q : σ → Prop) : σ → Prop where
  | now {s : σ} (h : Q s) : Inevitable M Q s
  | next {s : σ} (hcan : ∃ a t, M.step s a = some t)
      (h : ∀ a t, M.step s a = some t → Inevitable M Q t) : Inevitable M Q s

/-- **What cannot be put off**: `Q` is inevitable where an invariant holds under which the machine
can go on until `Q`, and comes closer to it with every step. -/
theorem inevitable_of_measure {I Q : σ → Prop} (μ : σ → Nat)
    (hcan : ∀ s, I s → ¬ Q s → ∃ a t, M.step s a = some t)
    (hstep : ∀ s a t, I s → ¬ Q s → M.step s a = some t → I t ∧ μ t < μ s) (hs : I s) :
    M.Inevitable Q s := by
  induction hd : μ s using Nat.strongRecOn generalizing s with
  | _ d ih =>
    by_cases hq : Q s
    · exact .now hq
    · refine .next (hcan s hs hq) fun a t hst => ?_
      obtain ⟨ht, hlt⟩ := hstep s a t hs hq hst
      exact ih (μ t) (hd ▸ hlt) ht rfl

/-- `Q` is inevitable for the party that takes the actions `own`, as long as all steps meet `P`:
whatever steps of the others come between, it can take a step until `Q` holds, and `Q` holds after
finitely many steps of its own. -/
inductive InevitableFor (M : Machine σ α) (P : σ → α → Prop) (own : α → Bool) (Q : σ → Prop) :
    σ → Prop where
  | intro {s : σ}
      (hcan : ∀ t, M.RunOf (fun s a => P s a ∧ own a = false) s t → ¬ Q t →
        ∃ a u, own a = true ∧ P t a ∧ M.step t a = some u)
      (h : ∀ t a u, M.RunOf (fun s a => P s a ∧ own a = false) s t → ¬ Q t → own a = true →
        P t a → M.step t a = some u → InevitableFor M P own Q u) : InevitableFor M P own Q s

/-- **What the others cannot put off**: `Q` is inevitable for a party where an invariant holds under
which it can go on until `Q`, and comes closer to it with every step of its own, if no step of the
others takes it away from there. -/
theorem inevitableFor_of_measure {β : Type*} [Preorder β] [WellFoundedLT β] {own : α → Bool}
    {I Q : σ → Prop} (μ : σ → β)
    (hcan : ∀ s, I s → ¬ Q s → ∃ a t, own a = true ∧ P s a ∧ M.step s a = some t)
    (hother : ∀ s a t, I s → P s a → own a = false → M.step s a = some t → I t ∧ μ t ≤ μ s)
    (hown : ∀ s a t, I s → ¬ Q s → P s a → own a = true → M.step s a = some t →
      I t ∧ μ t < μ s) (hs : I s) : M.InevitableFor P own Q s := by
  generalize hd : μ s = d
  induction d using WellFoundedLT.induction generalizing s with
  | ind d ih =>
    have hrun {t : σ} (ht : M.RunOf (fun s a => P s a ∧ own a = false) s t) :
        I t ∧ μ t ≤ μ s := by
      refine ht.invariant (I := fun t => I t ∧ μ t ≤ μ s) ⟨hs, le_rfl⟩ ?_
      intro u a v _ hu ha hv
      obtain ⟨hI, hle⟩ := hother u a v hu.1 ha.1 ha.2 hv
      exact ⟨hI, hle.trans hu.2⟩
    refine .intro (fun t ht hq => hcan t (hrun ht).1 hq) fun t a u ht hq ha hP hu => ?_
    obtain ⟨hI, hlt⟩ := hown t a u (hrun ht).1 hq hP ha hu
    exact ih (μ u) (hd ▸ hlt.trans_le (hrun ht).2) hI rfl

/-- Two machines with separate states: an action moves one of them, and the other stays. -/
def par {τ β : Type*} (M : Machine σ α) (N : Machine τ β) : Machine (σ × τ) (α ⊕ β) where
  init s := M.init s.1 ∧ N.init s.2
  step s
    | .inl a => (M.step s.1 a).map fun t => (t, s.2)
    | .inr b => (N.step s.2 b).map fun t => (s.1, t)

/-! ### Products

A family of machines with separate states. Each action names the component it moves, and the
others stay as they are. -/

section Pi

variable {δ : Type*} [DecidableEq δ]

/-- The product of a family of machines: every component starts in one of its own initial
states, and `(d, a)` lets component `d` perform `a`. -/
def pi (M : δ → Machine σ α) : Machine (δ → σ) (δ × α) where
  init s := ∀ d, (M d).init (s d)
  step s a := ((M a.1).step (s a.1) a.2).map (Function.update s a.1)

/-- **Projection.** A run of the product is, seen from one component, a run of that component. -/
theorem RunOf.proj {M : δ → Machine σ α} {P : (δ → σ) → δ × α → Prop} {Q : σ → α → Prop} {d : δ}
    {s t : δ → σ} (h : (pi M).RunOf P s t) (hPQ : ∀ s a, P s (d, a) → Q (s d) a) :
    (M d).RunOf Q (s d) (t d) := by
  refine h.invariant (I := fun u => (M d).RunOf Q (s d) (u d)) RunOf.refl ?_
  rintro u ⟨e, a⟩ v - hu ha hv
  obtain ⟨w, hw, rfl⟩ := Option.map_eq_some_iff.mp hv
  by_cases hde : d = e
  · subst hde
    simpa using hu.tail (hPQ u a ha) hw
  · simpa [Function.update_of_ne hde] using hu

theorem ReachableOf.proj {M : δ → Machine σ α} {P : (δ → σ) → δ × α → Prop} {Q : σ → α → Prop}
    {s : δ → σ} (h : (pi M).ReachableOf P s) (d : δ) (hPQ : ∀ s a, P s (d, a) → Q (s d) a) :
    (M d).ReachableOf Q (s d) := by
  obtain ⟨s₀, h₀, hr⟩ := h
  exact ⟨s₀ d, h₀ d, hr.proj hPQ⟩

end Pi

end Machine

end Shabdiz
