import Mathlib.Init

/-!
# Programs that may throw, by pre- and postconditions

A program takes a state to another one, and returns a value or throws an exception; what it has done
to the state stays when it throws. A triple says what holds of the value and the state when the
program returns, and of the exception and the state when it throws, if it starts from a state that
meets the precondition. Every program ends, so that is total correctness.

The rules follow the text of a program: one for each way to put it together.

## Main definitions

* `EndsWith` — what holds at the end of a run
* `Triple` — what holds when a program has ended
* `thrownBy`, `endState` — the end of a run, whether something was thrown or not

## Main results

* `Triple.bind`, `Triple.tryCatch`, `Triple.tryFinally` — the rules for parts of a program
* `Triple.consequence` — a weaker triple
-/

namespace Shabdiz

/-- What holds at the end of a run. -/
def EndsWith {σ ε α : Type} (Q : α → σ → Prop) (E : ε → σ → Prop) : EStateM.Result ε σ α → Prop
  | .ok a s => Q a s
  | .error e s => E e s

/-- From a state in `P`, the program returns with `Q` or throws with `E`. -/
def Triple {σ ε α : Type} (P : σ → Prop) (x : EStateM ε σ α) (Q : α → σ → Prop)
    (E : ε → σ → Prop) : Prop :=
  ∀ s, P s → EndsWith Q E (x.run s)

/-- What was thrown, if anything was. -/
def thrownBy {σ ε α : Type} : EStateM.Result ε σ α → Option ε
  | .ok _ _ => none
  | .error e _ => some e

/-- The state that a run ends in, also where it throws. -/
def endState {σ ε α : Type} : EStateM.Result ε σ α → σ
  | .ok _ s => s
  | .error _ s => s

/-- A computation that has no state. -/
def fromExcept {σ ε α : Type} : Except ε α → EStateM ε σ α
  | .ok a => pure a
  | .error e => throw e

/-- What a program with a finalizer does. -/
theorem run_tryFinally {σ ε α β : Type} (x : EStateM ε σ α) (f : EStateM ε σ β) (s : σ) :
    (tryFinally x f).run s =
      match x.run s with
      | .ok a t =>
        match f.run t with
        | .ok _ u => .ok a u
        | .error e u => .error e u
      | .error e t =>
        match f.run t with
        | .ok _ u => .error e u
        | .error e' u => .error e' u := by
  simp only [tryFinally, tryFinally', Functor.map, EStateM.run, EStateM.map]
  cases x s with
  | ok a t =>
    dsimp only
    cases f t <;> rfl
  | error e t =>
    dsimp only
    cases f t <;> rfl

namespace Triple

variable {σ ε α β : Type} {P P' : σ → Prop} {Q Q' : α → σ → Prop} {R : β → σ → Prop}
  {E E' : ε → σ → Prop} {x : EStateM ε σ α}

theorem consequence (h : Triple P x Q E) (hP : ∀ s, P' s → P s) (hQ : ∀ a s, Q a s → Q' a s)
    (hE : ∀ e s, E e s → E' e s) : Triple P' x Q' E' := by
  intro s hs
  have hend := h s (hP s hs)
  revert hend
  cases x.run s with
  | ok a t => exact hQ a t
  | error e t => exact hE e t

/-- **At the end** of one run, with what was thrown as an option. -/
theorem ends {F : Option ε → σ → Prop} (h : Triple P x (fun _ => F none) (fun e => F (some e)))
    {s : σ} (hs : P s) : F (thrownBy (x.run s)) (endState (x.run s)) := by
  have hend := h s hs
  revert hend
  cases x.run s <;> exact id

theorem pure (a : α) (h : ∀ s, P s → Q a s) : Triple P (pure a) Q E := h

theorem modify (f : σ → σ) {Q : PUnit → σ → Prop} (h : ∀ s, P s → Q ⟨⟩ (f s)) :
    Triple P (modify f) Q E := h

theorem bind {f : α → EStateM ε σ β} (hx : Triple P x Q E)
    (hf : ∀ a, Triple (Q a) (f a) R E) : Triple P (x >>= f) R E := by
  intro s hs
  have hend := hx s hs
  show EndsWith R E (EStateM.bind x f s)
  rw [EStateM.bind]
  revert hend
  show EndsWith Q E (x s) → _
  cases x s with
  | ok a t => exact hf a t
  | error e t => exact id

/-- After a program that returns no value of interest. -/
theorem next {x : EStateM ε σ PUnit} {y : EStateM ε σ β} {Q : σ → Prop}
    (hx : Triple P x (fun _ => Q) E) (hy : Triple Q y R E) : Triple P (x >>= fun _ => y) R E :=
  bind hx fun _ => hy

/-- **The handler** begins in the state in which the exception was thrown. -/
theorem tryCatch {h : ε → EStateM ε σ α} (hx : Triple P x Q E')
    (hh : ∀ e, Triple (E' e) (h e) Q E) : Triple P (tryCatch x h) Q E := by
  intro s hs
  have hend := hx s hs
  show EndsWith Q E (EStateM.tryCatch x h s)
  delta EStateM.tryCatch
  dsimp only
  revert hend
  show EndsWith Q E' (x s) → _
  cases x s with
  | ok a t => exact id
  | error e t => exact hh e t

/-- **The finalizer** runs in any case, and what was returned or thrown before is kept. -/
theorem tryFinally {f : EStateM ε σ β} (hx : Triple P x Q E)
    (hf : ∀ a, Triple (Q a) f (fun _ => Q' a) E') (hf' : ∀ e, Triple (E e) f (fun _ => E' e) E') :
    Triple P (tryFinally x f) Q' E' := by
  intro s hs
  have hend := hx s hs
  rw [run_tryFinally]
  revert hend
  cases x.run s with
  | ok a t =>
    intro hend
    have hfinal := hf a t hend
    revert hfinal
    dsimp only
    cases f.run t <;> exact id
  | error e t =>
    intro hend
    have hfinal := hf' e t hend
    revert hfinal
    dsimp only
    cases f.run t <;> exact id

end Triple

end Shabdiz
