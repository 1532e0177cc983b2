import Mathlib.Algebra.Ring.Int.Defs
import Mathlib.Data.List.Forall2
import Mathlib.Data.List.Induction

/-!
# Loops that may fail

A loop over a list takes a state on, round by round, and may fail in each round. What is said of a
loop that does not fail is said of its rounds, so that it does not matter in which way a round
fails.

## Main definitions

* `Rounds` — the rounds of a loop that does not fail

## Main results

* `rounds_of_foldlM_eq_some`, `rounds_of_foldlM_eq_ok` — what `foldlM` does
* `Rounds.invariant`, `invariant_of_foldlM` — what every round keeps
* `Rounds.establishes` — what one round brings about and every round keeps
* `exists_foldlM` — a loop in which every round comes to an end
* `exists_mapM` — what is made of every element
* `toInt_add_one` — a counter that has not reached the largest `int`
-/

namespace Shabdiz

/-- A loop over a list, from a state to a state. -/
inductive Rounds {σ τ : Type} (R : σ → τ → σ → Prop) : List τ → σ → σ → Prop where
  | nil {s} : Rounds R [] s s
  | cons {x l s t s'} (h : R s x t) (rest : Rounds R l t s') : Rounds R (x :: l) s s'

variable {σ τ ε : Type} {l : List τ} {s s' : σ}

/-- A result is that of what follows. -/
theorem bind_eq_ok_iff {α β : Type} {r : Except ε α} {k : α → Except ε β} {b : β} :
    (r >>= k) = .ok b ↔ ∃ x, r = .ok x ∧ k x = .ok b := by
  cases r with
  | error e => simp [bind, Except.bind]
  | ok x => simp [bind, Except.bind]

theorem rounds_of_foldlM_eq_some {f : σ → τ → Option σ} (h : l.foldlM f s = some s') :
    Rounds (fun s x s' => f s x = some s') l s s' := by
  induction l generalizing s with
  | nil => exact Option.some.inj h ▸ .nil
  | cons x l ih =>
    obtain ⟨t, ht, hrest⟩ := Option.bind_eq_some_iff.mp h
    exact .cons ht (ih hrest)

theorem rounds_of_foldlM_eq_ok {f : σ → τ → Except ε σ} (h : l.foldlM f s = .ok s') :
    Rounds (fun s x s' => f s x = .ok s') l s s' := by
  induction l generalizing s with
  | nil => exact Except.ok.inj h ▸ .nil
  | cons x l ih =>
    obtain ⟨t, ht, hrest⟩ := bind_eq_ok_iff.mp h
    exact .cons ht (ih hrest)

/-- A loop fails in one of its rounds. -/
theorem exists_of_foldlM_eq_error {f : σ → τ → Except ε σ} {e : ε} (h : l.foldlM f s = .error e) :
    ∃ t, ∃ x ∈ l, f t x = .error e := by
  induction l generalizing s with
  | nil => exact absurd h (by simp [pure, Except.pure])
  | cons x l ih =>
    rw [List.foldlM_cons] at h
    cases ht : f s x with
    | error e' =>
      rw [ht] at h
      obtain rfl := Except.error.inj h
      exact ⟨s, x, List.mem_cons_self, ht⟩
    | ok t =>
      rw [ht] at h
      obtain ⟨u, y, hy, hu⟩ := ih h
      exact ⟨u, y, List.mem_cons_of_mem x hy, hu⟩

/-- **What every round keeps**, a loop keeps. -/
theorem Rounds.invariant {R : σ → τ → σ → Prop} {I : σ → Prop} (h : Rounds R l s s')
    (hround : ∀ s x s', x ∈ l → I s → R s x s' → I s') (hs : I s) : I s' := by
  induction h with
  | nil => exact hs
  | cons h _ ih =>
    exact ih (fun s x s' hx => hround s x s' (List.mem_cons_of_mem _ hx))
      (hround _ _ _ List.mem_cons_self hs h)

/-- **What one round brings about** and every round keeps holds after the loop. -/
theorem Rounds.establishes {R : σ → τ → σ → Prop} {I K : σ → Prop} {x : τ} (h : Rounds R l s s')
    (hx : x ∈ l) (hround : ∀ s x s', I s → R s x s' → I s')
    (hestablish : ∀ s s', I s → R s x s' → K s') (hkeep : ∀ s x s', K s → R s x s' → K s')
    (hs : I s) : K s' := by
  induction h with
  | nil => exact absurd hx List.not_mem_nil
  | cons h rest ih =>
    obtain rfl | hx := List.mem_cons.mp hx
    · exact rest.invariant (fun s x s' _ => hkeep s x s') (hestablish _ _ hs h)
    · exact ih hx (hround _ _ _ hs h)

/-- **What every round keeps**, with the rounds before it known, a loop keeps. -/
theorem invariant_of_foldlM {f : σ → τ → Option σ} {I : σ → Prop} (h : l.foldlM f s = some s')
    (hround : ∀ before x after t t', l = before ++ x :: after → before.foldlM f s = some t → I t →
      f t x = some t' → I t') (hs : I s) : I s' := by
  induction l using List.reverseRecOn generalizing s' with
  | nil => exact Option.some.inj h ▸ hs
  | append_singleton l x ih =>
    rw [List.foldlM_append] at h
    obtain ⟨t, ht, hlast⟩ := Option.bind_eq_some_iff.mp h
    rw [List.foldlM_cons] at hlast
    obtain ⟨t', ht', hnil⟩ := Option.bind_eq_some_iff.mp hlast
    obtain rfl := Option.some.inj hnil
    refine hround l x [] t _ rfl ht (ih ht ?_) ht'
    intro before y after u u' hl
    exact hround before y (after ++ [x]) u u' (by rw [hl, List.append_assoc, List.cons_append])

/-- A loop whose rounds succeed in more cases. -/
theorem foldlM_mono {f g : σ → τ → Option σ} (hfg : ∀ s x s', f s x = some s' → g s x = some s')
    (h : l.foldlM f s = some s') : l.foldlM g s = some s' := by
  induction l generalizing s with
  | nil => exact h
  | cons x l ih =>
    obtain ⟨t, ht, hrest⟩ := Option.bind_eq_some_iff.mp h
    exact Option.bind_eq_some_iff.mpr ⟨t, hfg s x t ht, ih hrest⟩

/-- A loop comes to an end if every round does. -/
theorem exists_foldlM {f : σ → τ → Option σ} {I : σ → Prop}
    (hround : ∀ s x, x ∈ l → I s → ∃ s', f s x = some s' ∧ I s') (hs : I s) :
    ∃ s', l.foldlM f s = some s' ∧ I s' := by
  induction l generalizing s with
  | nil => exact ⟨s, rfl, hs⟩
  | cons x l ih =>
    obtain ⟨t, ht, hI⟩ := hround s x List.mem_cons_self hs
    obtain ⟨u, hu, hI⟩ := ih (fun s x hx => hround s x (List.mem_cons_of_mem _ hx)) hI
    exact ⟨u, Option.bind_eq_some_iff.mpr ⟨t, ht, hu⟩, hI⟩

/-- What is made of the elements, if something is made of each. -/
theorem exists_mapM {f : τ → Except ε σ} {R : τ → σ → Prop}
    (h : ∀ x ∈ l, ∃ y, f x = .ok y ∧ R x y) :
    ∃ ys, l.mapM f = .ok ys ∧ List.Forall₂ R l ys := by
  induction l with
  | nil => exact ⟨[], rfl, .nil⟩
  | cons x l ih =>
    obtain ⟨hx, hl⟩ := List.forall_mem_cons.mp h
    obtain ⟨y, hy, hR⟩ := hx
    obtain ⟨ys, hys, hrest⟩ := ih hl
    refine ⟨y :: ys, ?_, .cons hR hrest⟩
    rw [List.mapM_cons, hy, hys]
    rfl

theorem toInt_add_one {index : Int32} (h : index.toInt < 2 ^ 31 - 1) :
    (index + 1).toInt = index.toInt + 1 := by
  have := index.le_toInt
  have hone : (1 : Int32).toInt = 1 := rfl
  rw [Int32.toInt_add, hone]
  simp only [Int.bmod]
  omega

end Shabdiz
