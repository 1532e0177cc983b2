import Mathlib.Logic.Function.Basic

/-!
# Calls on objects that share a state

A family of objects of one process, each with a state of its own, and a state that all of them
share, such as the static fields of their classes. A call on an object may read and change both.
The objects do not influence one another if every call gives the result it would give with no other
object around.

## Main definitions

* `SharedCalls` — what a call on an object does
* `SharedCalls.results`, `SharedCalls.shared` — a sequence of calls
* `SharedCalls.Harmless` — a call that does not tell certain shared states apart, nor leaves them

## Main results

* `SharedCalls.filter_results` — harmless calls do not influence one another
-/

namespace Shabdiz

/-- What a call on an object does, given the state of the object and the shared state: its result,
and both states afterwards. -/
structure SharedCalls (ι C O S R : Type*) where
  call : ι → C → O → S → R × O × S

namespace SharedCalls

variable {ι C O S R : Type*} [DecidableEq ι] (M : SharedCalls ι C O S R)

/-- The results of a sequence of calls, each with the object it was made on. -/
def results : (ι → O) → S → List (ι × C) → List (ι × R)
  | _, _, [] => []
  | o, s, (i, c) :: calls =>
    let (r, oi, t) := M.call i c (o i) s
    (i, r) :: results (Function.update o i oi) t calls

/-- The shared state after a sequence of calls. -/
def shared : (ι → O) → S → List (ι × C) → S
  | _, s, [] => s
  | o, s, (i, c) :: calls =>
    let (_, oi, t) := M.call i c (o i) s
    shared (Function.update o i oi) t calls

/-- A call that gives the same result in all shared states that satisfy `Q`, and stays among
them. -/
structure Harmless (Q : S → Prop) (i : ι) (c : C) : Prop where
  result : ∀ o s t, Q s → Q t → (M.call i c o s).1 = (M.call i c o t).1
  object : ∀ o s t, Q s → Q t → (M.call i c o s).2.1 = (M.call i c o t).2.1
  shared : ∀ o s, Q s → Q (M.call i c o s).2.2

variable {M} {Q : S → Prop} {o u : ι → O} {s t : S} {i : ι} {c : C} {calls : List (ι × C)}

theorem results_cons : M.results o s ((i, c) :: calls) = (i, (M.call i c (o i) s).1) ::
    M.results (Function.update o i (M.call i c (o i) s).2.1) (M.call i c (o i) s).2.2 calls :=
  rfl

theorem shared_cons : M.shared o s ((i, c) :: calls) =
    M.shared (Function.update o i (M.call i c (o i) s).2.1) (M.call i c (o i) s).2.2 calls :=
  rfl

theorem shared_of_harmless (h : ∀ p ∈ calls, M.Harmless Q p.1 p.2) (hs : Q s) :
    Q (M.shared o s calls) := by
  induction calls generalizing o s with
  | nil => exact hs
  | cons p calls ih =>
    obtain ⟨i, c⟩ := p
    obtain ⟨hp, hrest⟩ := List.forall_mem_cons.mp h
    rw [shared_cons]
    exact ih hrest (hp.shared _ _ hs)

/-- **Harmless calls do not influence one another.** The results on one object are those of the
calls on this object alone, from any shared state that satisfies `Q`. -/
theorem filter_results (i : ι) (h : ∀ p ∈ calls, M.Harmless Q p.1 p.2) (hs : Q s) (ht : Q t)
    (ho : o i = u i) :
    (M.results o s calls).filter (·.1 = i) = M.results u t (calls.filter (·.1 = i)) := by
  induction calls generalizing o u s t with
  | nil => rfl
  | cons p calls ih =>
    obtain ⟨j, c⟩ := p
    obtain ⟨hp, hrest⟩ := List.forall_mem_cons.mp h
    by_cases hj : j = i
    · subst hj
      have hresult := hp.result (o j) s t hs ht
      have hobject := hp.object (o j) s t hs ht
      rw [List.filter_cons_of_pos (by simp), results_cons, results_cons,
        List.filter_cons_of_pos (by simp), ← ho, hresult]
      exact congrArg _ (ih hrest (hp.shared _ _ hs) (hp.shared _ _ ht) (by simp [hobject]))
    · -- The call is on another object, and is not among those that are made alone.
      rw [List.filter_cons_of_neg (by simpa using hj), results_cons,
        List.filter_cons_of_neg (by simpa using hj)]
      exact ih hrest (hp.shared _ _ hs) ht (by rw [Function.update_of_ne (Ne.symm hj), ho])

end SharedCalls

end Shabdiz
