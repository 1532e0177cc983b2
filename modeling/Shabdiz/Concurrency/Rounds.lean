import Mathlib.Data.Nat.Notation
import Shabdiz.Concurrency.Machine

/-!
# Rounds of a run

Threads that do something again and again do it each at its own pace. A *round* of a run is a
stretch in which every one of them has come round often enough. What several threads bring about
together takes a number of rounds, whatever their pace.

What one thread brings about is proved step by step: an assertion that every step keeps, and that
becomes a stronger one when the thread comes round.

## Main definitions

* `Machine.Trace` — a run, with the list of its actions
* `Machine.Keeps` — what every step keeps
* `Machine.RoundOf`, `Machine.RoundsOf` — rounds of a run

## Main results

* `Machine.Trace.establish` — what holds when a thread has come round
* `Machine.trace_of_execOf` — evaluating a list of actions yields a trace
-/

namespace Shabdiz

namespace Machine

variable {σ α κ : Type*} {M : Machine σ α} {P : σ → α → Prop} {I J : σ → Prop} {s t u : σ}
  {as bs : List α} {q : α → Bool}

/-- A run every step of which meets `P`, with its actions. -/
inductive Trace (M : Machine σ α) (P : σ → α → Prop) : σ → List α → σ → Prop where
  | nil {s : σ} : Trace M P s [] s
  | cons {s t u : σ} {a : α} {as : List α} (ha : P s a) (hs : M.step s a = some t)
      (h : Trace M P t as u) : Trace M P s (a :: as) u

/-- Every step that meets `P` keeps `I`. -/
def Keeps (M : Machine σ α) (P : σ → α → Prop) (I : σ → Prop) : Prop :=
  ∀ s a t, I s → P s a → M.step s a = some t → I t

theorem Trace.runOf (h : M.Trace P s as t) : M.RunOf P s t := by
  induction h with
  | nil => exact RunOf.refl
  | cons ha hs h ih => exact RunOf.head ha hs ih

theorem trace_of_execOf [∀ s a, Decidable (P s a)] (h : M.execOf P s as = some t) :
    M.Trace P s as t := by
  induction as generalizing s with
  | nil =>
    obtain rfl : s = t := Option.some.inj h
    exact .nil
  | cons a as ih =>
    simp only [execOf] at h
    split at h
    · obtain ⟨u, hu, ht⟩ := Option.bind_eq_some_iff.mp h
      exact .cons ‹P s a› hu (ih ht)
    · cases h

theorem Keeps.runOf (hI : M.Keeps P I) (h : M.RunOf P s t) (hs : I s) : I t :=
  h.invariant hs fun u a v _ hu => hI u a v hu

/-- **Coming round**: `I` is kept until an action that meets `q` makes `J` of it. -/
theorem Trace.establish {k : ℕ} (hI : M.Keeps P I)
    (hJ : ∀ s a t, I s → P s a → q a = true → M.step s a = some t → J t) (h : M.Trace P s as t)
    (hs : I s) (hk : k + 1 ≤ as.countP q) :
    ∃ u bs, M.Trace P u bs t ∧ k ≤ bs.countP q ∧ J u := by
  induction h with
  | nil => exact absurd hk (Nat.not_succ_le_zero k)
  | @cons s u t a as ha hst h ih =>
    by_cases hq : q a = true
    · rw [List.countP_cons_of_pos hq] at hk
      exact ⟨u, as, h, Nat.le_of_succ_le_succ hk, hJ s a u hs ha hq hst⟩
    · rw [List.countP_cons_of_neg hq] at hk
      exact ih (hI s a u hs ha hst) hk

/-! ### Rounds -/

/-- A run in which every thread `i` takes at least `k` of the actions that meet `q i`. -/
def RoundOf (M : Machine σ α) (P : σ → α → Prop) (q : κ → α → Bool) (k : ℕ) (s t : σ) : Prop :=
  ∃ as, M.Trace P s as t ∧ ∀ i, k ≤ as.countP (q i)

/-- So many rounds, one after the other. -/
def RoundsOf (M : Machine σ α) (P : σ → α → Prop) (q : κ → α → Bool) (k : ℕ) :
    ℕ → σ → σ → Prop
  | 0, s, t => s = t
  | n + 1, s, t => ∃ u, M.RoundOf P q k s u ∧ M.RoundsOf P q k n u t

/-- Rounds found by evaluation. -/
theorem exists_roundsOf_of_execOf (M : Machine σ α) (P : σ → α → Prop)
    [∀ s a, Decidable (P s a)] (q : κ → α → Bool) (k : ℕ) (rounds : List (List α)) (s : σ)
    (hk : ∀ as ∈ rounds, ∀ i, k ≤ as.countP (q i))
    (h : (rounds.foldlM (M.execOf P) s).isSome = true) :
    ∃ t, M.RoundsOf P q k rounds.length s t := by
  induction rounds generalizing s with
  | nil => exact ⟨s, rfl⟩
  | cons as rounds ih =>
    rw [List.foldlM_cons] at h
    cases hu : M.execOf P s as with
    | none =>
      rw [hu] at h
      cases h
    | some u =>
      rw [hu] at h
      obtain ⟨t, ht⟩ := ih u (fun bs hbs => hk bs (List.mem_cons_of_mem _ hbs)) h
      exact ⟨t, u, ⟨as, trace_of_execOf hu, hk as (List.mem_cons_self ..)⟩, ht⟩

end Machine

end Shabdiz
