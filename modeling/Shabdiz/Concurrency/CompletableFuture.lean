import Mathlib.Init

/-!
# Completable futures

A completable future is completed once: whoever completes it first decides its outcome, and every
later attempt is without effect. A cancellation is one of the attempts.

## Main definitions

* `Outcome`, `CompletableFuture` — how a future has ended, if it has
* `CompletableFuture.settle`, `complete`, `completeExceptionally`, `cancel` — the attempts

## Main results

* `CompletableFuture.settle_of_isDone` — the first completion wins
* `CompletableFuture.settle_outcome_eq_some` — the outcome after an attempt
-/

namespace Shabdiz

/-- What a future can be completed exceptionally with. -/
inductive Cause (E : Type) where
  /-- The `CancellationException` of a cancelled future. -/
  | cancellationException
  | exception (e : E)
deriving DecidableEq

/-- How a future has ended. -/
inductive Outcome (V E : Type) where
  | completed (value : V)
  | completedExceptionally (cause : Cause E)
deriving DecidableEq

/-- A future, by its outcome; `none` while it is pending. -/
structure CompletableFuture (V E : Type) where
  outcome : Option (Outcome V E)
deriving DecidableEq

namespace CompletableFuture

variable {V E : Type} {f : CompletableFuture V E} {o o' : Outcome V E}

/-- A new future. -/
def pending : CompletableFuture V E := ⟨none⟩

/-- The future has an outcome, whichever it is. -/
def isDone (f : CompletableFuture V E) : Bool := f.outcome.isSome

/-- Whether the future has ended with a `CancellationException`, its own or a completer's. -/
def isCancelled (f : CompletableFuture V E) : Bool :=
  f.outcome matches some (.completedExceptionally .cancellationException)

/-- Complete the future, unless it is done. -/
def settle (o : Outcome V E) (f : CompletableFuture V E) : CompletableFuture V E :=
  ⟨f.outcome.or (some o)⟩

/-- Complete the future with a value, unless it is already complete. -/
def complete (value : V) (f : CompletableFuture V E) : CompletableFuture V E :=
  f.settle (.completed value)

/-- Complete the future with an exception, unless it is already complete. -/
def completeExceptionally (cause : Cause E) (f : CompletableFuture V E) : CompletableFuture V E :=
  f.settle (.completedExceptionally cause)

/-- Cancel the future, unless it is done. The call returns `isCancelled` of the result. -/
def cancel (f : CompletableFuture V E) : CompletableFuture V E :=
  f.completeExceptionally .cancellationException

@[simp] theorem pending_outcome : (pending : CompletableFuture V E).outcome = none := rfl

/-- **The first completion wins.** -/
theorem settle_of_isDone (h : f.isDone = true) : f.settle o = f := by
  obtain ⟨outcome⟩ := f
  cases outcome with
  | none => cases h
  | some x => rfl

@[simp] theorem isDone_settle : (f.settle o).isDone = true := by
  obtain ⟨outcome⟩ := f
  cases outcome <;> rfl

theorem isDone_iff : f.isDone = true ↔ ∃ o, f.outcome = some o := Option.isSome_iff_exists

theorem settle_outcome_eq_some :
    (f.settle o).outcome = some o' ↔ f.outcome = some o' ∨ (f.outcome = none ∧ o = o') := by
  obtain ⟨outcome⟩ := f
  cases outcome <;> simp [settle]

/-- An attempt to complete a future leaves the outcome it has. -/
theorem settle_outcome_of_eq (h : f.outcome = some o') : (f.settle o).outcome = some o' :=
  settle_outcome_eq_some.mpr (Or.inl h)

theorem isCancelled_iff :
    f.isCancelled = true ↔ f.outcome = some (.completedExceptionally .cancellationException) := by
  obtain ⟨outcome⟩ := f
  rcases outcome with _ | (_ | (_ | _)) <;> simp [isCancelled]

end CompletableFuture

end Shabdiz
