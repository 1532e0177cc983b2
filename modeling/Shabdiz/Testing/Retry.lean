import Mathlib.Algebra.BigOperators.Group.List.Basic
import Mathlib.Algebra.Ring.Nat
import Mathlib.Data.List.Forall2

/-!
# A rule that retries tests

`Retry` wraps a statement in a loop that evaluates it until it succeeds, up to a maximum number of
times. The loop belongs to the statement, but what is counted belongs to the rule, and is never
reset. So a rule has a number of attempts for all statements together: what one of them takes is
not there for the next, and one that begins when the count is used up is not evaluated at all, and
ends with an `InterruptedException`.

## Main definitions

* `RetryRule`, `RetryRule.evaluate` — the rule and one evaluation
* `RetryRule.evaluateAll` — the statements one after another
* `attemptsNeeded` — the attempts up to the first success, or all
* `Retried`, `TreatsAlike` — every statement has its own attempts

## Main results

* `RetryRule.evaluate_eq` — what an evaluation with the attempts that are left does
* `treatsAlike_iff` — the sequences of statements that are treated alike
* `not_treatsAlike_second` — a statement that is never evaluated
-/

namespace Shabdiz

/-! ### The code -/

/-- The rule. It is not made for a maximum below one. -/
structure RetryRule where
  maxRetryCount : ℕ
  positive : 0 < maxRetryCount
  retryCount : ℕ

/-- The `IllegalArgumentException` of the constructor. -/
def maxRetryCountMessage : String := "max retry count must be at least 1"

/-- What is thrown: the error of the last attempt, or a new exception. -/
inductive RetryError (E : Type) where
  | latest (error : E)
  | interruptedException

/-- What came of a statement, and how often it was evaluated. -/
structure RuleEvaluation (E : Type) where
  attempts : ℕ
  result : Except (RetryError E) Unit

namespace RetryRule

/-- The constructor, which refuses a count below one. -/
def new (maxRetryCount : ℤ) : Except String RetryRule :=
  if h : 0 < maxRetryCount then .ok ⟨maxRetryCount.toNat, by omega, 0⟩
  else .error maxRetryCountMessage

/-- The rule has made as many attempts as it may. -/
def hasMaxRetryCountReached (rule : RetryRule) : Bool := rule.maxRetryCount ≤ rule.retryCount

variable {E : Type}

/-- The loop, after `k` attempts. `outcomes k` is what the next attempt throws, if anything, and
`interrupted k` is whether the thread is interrupted before it. -/
def evaluateFrom (interrupted : ℕ → Bool) (outcomes : ℕ → Option E) (k : ℕ)
    (latestError : Option E) (rule : RetryRule) : RuleEvaluation E × RetryRule :=
  if interrupted k = false ∧ rule.hasMaxRetryCountReached = false then
    match outcomes k with
    | none => (⟨k + 1, .ok ()⟩, { rule with retryCount := rule.retryCount + 1 })
    | some error =>
      evaluateFrom interrupted outcomes (k + 1) (some error)
        { rule with retryCount := rule.retryCount + 1 }
  else
    match latestError with
    | some error => (⟨k, .error (.latest error)⟩, rule)
    | none => (⟨k, .error .interruptedException⟩, rule)
termination_by rule.maxRetryCount - rule.retryCount
decreasing_by
  have hlt := decide_eq_false_iff_not.mp (And.right ‹_ ∧ _›)
  show rule.maxRetryCount - (rule.retryCount + 1) < rule.maxRetryCount - rule.retryCount
  omega

/-- One statement, in a thread that is not interrupted. -/
def evaluate (rule : RetryRule) (outcomes : ℕ → Option E) : RuleEvaluation E × RetryRule :=
  evaluateFrom (fun _ => false) outcomes 0 none rule

/-- One rule around several statements: the count of the attempts goes from one to the next. -/
def evaluateAll (rule : RetryRule) : List (ℕ → Option E) → List (RuleEvaluation E)
  | [] => []
  | outcomes :: statements =>
    (rule.evaluate outcomes).1 :: evaluateAll (rule.evaluate outcomes).2 statements

end RetryRule

/-! ### What it is for -/

section Specification

variable {E : Type}

/-- The attempts up to the first success, but at most `n`. -/
def attemptsNeeded : ℕ → (ℕ → Option E) → ℕ
  | 0, _ => 0
  | n + 1, outcomes =>
    match outcomes 0 with
    | none => 1
    | some _ => attemptsNeeded n (fun k => outcomes (k + 1)) + 1

/-- A statement is attempted up to its first success, at most `n` times. It succeeds if one of its
first `n` attempts does, and otherwise throws what the last of these throws. -/
structure Retried (n : ℕ) (outcomes : ℕ → Option E) (e : RuleEvaluation E) : Prop where
  attempts : e.attempts = attemptsNeeded n outcomes
  succeeds : e.result = .ok () ↔ ∃ k < n, outcomes k = none
  throws : (∀ k < n, outcomes k ≠ none) →
    ∃ error, outcomes (n - 1) = some error ∧ e.result = .error (.latest error)

/-- All statements are, whatever was evaluated before them. -/
def TreatsAlike (rule : RetryRule) (statements : List (ℕ → Option E)) : Prop :=
  List.Forall₂ (Retried rule.maxRetryCount) statements (rule.evaluateAll statements)

end Specification

/-! ### One statement -/

section Statement

variable {E : Type} {n r k : ℕ} {outcomes : ℕ → Option E}

theorem attemptsNeeded_le (n : ℕ) (outcomes : ℕ → Option E) : attemptsNeeded n outcomes ≤ n := by
  induction n generalizing outcomes with
  | zero => exact Nat.le_refl 0
  | succ n ih =>
    rw [attemptsNeeded]
    split
    · exact Nat.succ_pos n
    · exact Nat.succ_le_succ (ih _)

/-- The attempts that are needed go up to the first success, or there is none. -/
theorem attemptsNeeded_cases (n : ℕ) (outcomes : ℕ → Option E) :
    (∃ k < n, outcomes k = none ∧ ∀ m, k < m → attemptsNeeded m outcomes = k + 1) ∨
      (∀ k < n, outcomes k ≠ none) ∧ attemptsNeeded n outcomes = n := by
  induction n generalizing outcomes with
  | zero => exact Or.inr ⟨fun k hk => absurd hk (Nat.not_lt_zero k), rfl⟩
  | succ n ih =>
    cases h0 : outcomes 0 with
    | none =>
      refine Or.inl ⟨0, Nat.succ_pos n, h0, fun m hm => ?_⟩
      obtain ⟨m, rfl⟩ := Nat.exists_eq_succ_of_ne_zero (Nat.ne_of_gt hm)
      rw [attemptsNeeded, h0]
    | some error =>
      obtain ⟨k, hk, hnone, hneeded⟩ | ⟨hall, hneeded⟩ := ih fun k => outcomes (k + 1)
      · refine Or.inl ⟨k + 1, Nat.succ_lt_succ hk, hnone, fun m hm => ?_⟩
        obtain ⟨m, rfl⟩ := Nat.exists_eq_succ_of_ne_zero (Nat.ne_zero_of_lt hm)
        rw [attemptsNeeded, h0, hneeded m (Nat.lt_of_succ_lt_succ hm)]
      · refine Or.inr ⟨fun k hk => ?_, by rw [attemptsNeeded, h0, hneeded]⟩
        cases k with
        | zero => rw [h0]; simp
        | succ k => exact hall k (Nat.lt_of_succ_lt_succ hk)

/-- How an evaluation ends for which `r` attempts are left: with a success of one of them, or with
the error of the last one. -/
structure Ends (outcomes : ℕ → Option E) (r : ℕ) (result : Except (RetryError E) Unit) : Prop where
  succeeds : result = .ok () ↔ ∃ k < r, outcomes k = none
  throws : (∀ k < r, outcomes k ≠ none) → 0 < r →
    ∃ error, outcomes (r - 1) = some error ∧ result = .error (.latest error)

theorem ends_zero {result : RetryError E} : Ends outcomes 0 (.error result) :=
  ⟨⟨fun h => absurd h (by simp), fun ⟨k, hk, _⟩ => absurd hk (Nat.not_lt_zero k)⟩,
    fun _ h => absurd h (Nat.lt_irrefl 0)⟩

theorem ends_succ_of_none (h : outcomes 0 = none) : Ends outcomes (r + 1) (.ok ()) :=
  ⟨⟨fun _ => ⟨0, Nat.succ_pos r, h⟩, fun _ => rfl⟩,
    fun hall _ => absurd h (hall 0 (Nat.succ_pos r))⟩

/-- After an attempt that fails it is as if there had been none, if any is left. -/
theorem ends_succ_of_some {error : E} {result : Except (RetryError E) Unit}
    (h : outcomes 0 = some error) (hends : Ends (fun k => outcomes (k + 1)) r result)
    (hlast : r = 0 → result = .error (.latest error)) : Ends outcomes (r + 1) result := by
  constructor
  · rw [hends.succeeds]
    constructor
    · rintro ⟨k, hk, hnone⟩
      exact ⟨k + 1, Nat.succ_lt_succ hk, hnone⟩
    · rintro ⟨k, hk, hnone⟩
      cases k with
      | zero => exact absurd (hnone.symm.trans h) (by simp)
      | succ k => exact ⟨k, Nat.lt_of_succ_lt_succ hk, hnone⟩
  · intro hall _
    cases r with
    | zero => exact ⟨error, h, hlast rfl⟩
    | succ r => exact hends.throws (fun k hk => hall (k + 1) (Nat.succ_lt_succ hk)) r.succ_pos

/-- **What the loop does** with `r` attempts left. -/
theorem RetryRule.evaluateFrom_eq {latestError : Option E} {rule : RetryRule}
    (hr : rule.maxRetryCount - rule.retryCount = r) :
    (rule.evaluateFrom (fun _ => false) outcomes k latestError).1.attempts =
        k + attemptsNeeded r (fun j => outcomes (k + j)) ∧
      (rule.evaluateFrom (fun _ => false) outcomes k latestError).2 = { rule with
        retryCount := rule.retryCount + attemptsNeeded r (fun j => outcomes (k + j)) } ∧
      Ends (fun j => outcomes (k + j)) r
        (rule.evaluateFrom (fun _ => false) outcomes k latestError).1.result ∧
      ∀ error, r = 0 → latestError = some error →
        (rule.evaluateFrom (fun _ => false) outcomes k latestError).1.result =
          .error (.latest error) := by
  induction r generalizing k latestError rule with
  | zero =>
    have hreached : rule.hasMaxRetryCountReached = true := decide_eq_true (by omega)
    rw [evaluateFrom.eq_def, if_neg (by simp [hreached])]
    cases latestError with
    | none => exact ⟨rfl, rfl, ends_zero, fun error _ h => absurd h (by simp)⟩
    | some latest => exact ⟨rfl, rfl, ends_zero, fun error _ h => by rw [Option.some.inj h]⟩
  | succ r ih =>
    have hreached : rule.hasMaxRetryCountReached = false := decide_eq_false (by omega)
    rw [evaluateFrom.eq_def, if_pos ⟨rfl, hreached⟩, attemptsNeeded]
    cases houtcome : outcomes k with
    | none => exact ⟨by simp, by simp, ends_succ_of_none houtcome, by simp⟩
    | some error =>
      have hshift : (fun j => outcomes (k + (j + 1))) = fun j => outcomes (k + 1 + j) :=
        funext fun j => by rw [show k + (j + 1) = k + 1 + j by omega]
      have hleft : rule.maxRetryCount - (rule.retryCount + 1) = r := by omega
      obtain ⟨hattempts, hrule, hends, hlast⟩ := @ih (k + 1) (some error)
        { rule with retryCount := rule.retryCount + 1 } hleft
      rw [hshift]
      refine ⟨?_, ?_, ?_, fun _ h => absurd h (by simp)⟩
      · rw [hattempts]
        show _ = k + (attemptsNeeded r _ + 1)
        omega
      · rw [hrule, RetryRule.mk.injEq]
        refine ⟨rfl, ?_⟩
        show rule.retryCount + 1 + _ = rule.retryCount + (_ + 1)
        omega
      · refine ends_succ_of_some houtcome ?_ fun h => hlast error h rfl
        rwa [hshift]

/-- **What an evaluation does** with the attempts that are left. -/
theorem RetryRule.evaluate_eq (rule : RetryRule) (outcomes : ℕ → Option E) :
    (rule.evaluate outcomes).1.attempts =
        attemptsNeeded (rule.maxRetryCount - rule.retryCount) outcomes ∧
      (rule.evaluate outcomes).2 = { rule with
        retryCount :=
          rule.retryCount + attemptsNeeded (rule.maxRetryCount - rule.retryCount) outcomes } ∧
      Ends outcomes (rule.maxRetryCount - rule.retryCount) (rule.evaluate outcomes).1.result := by
  have h := @evaluateFrom_eq E _ 0 outcomes none rule rfl
  simp only [Nat.zero_add] at h
  exact ⟨h.1, h.2.1, h.2.2.1⟩

/-- A statement is retried as it should be if the attempts it needs are left. -/
theorem retried_evaluate_iff (rule : RetryRule) (outcomes : ℕ → Option E) :
    Retried rule.maxRetryCount outcomes (rule.evaluate outcomes).1 ↔
      attemptsNeeded rule.maxRetryCount outcomes ≤ rule.maxRetryCount - rule.retryCount := by
  obtain ⟨hattempts, -, hends⟩ := rule.evaluate_eq outcomes
  constructor
  · intro h
    rw [← h.attempts, hattempts]
    exact attemptsNeeded_le _ _
  · intro hle
    obtain ⟨k, hk, hnone, hneeded⟩ | ⟨hall, hneeded⟩ :=
      attemptsNeeded_cases rule.maxRetryCount outcomes
    · -- the first success is among the attempts that are left
      have hk' : k < rule.maxRetryCount - rule.retryCount := by
        rw [hneeded _ hk] at hle
        omega
      refine ⟨?_, ?_, fun hall => absurd hnone (hall k hk)⟩
      · rw [hattempts, hneeded _ hk, hneeded _ hk']
      · exact ⟨fun _ => ⟨k, hk, hnone⟩, fun _ => hends.succeeds.mpr ⟨k, hk', hnone⟩⟩
    · -- all attempts are needed, and left
      have hr : rule.maxRetryCount - rule.retryCount = rule.maxRetryCount := by omega
      rw [hr] at hattempts hends
      exact ⟨hattempts, hends.succeeds, fun hall => hends.throws hall rule.positive⟩

end Statement

/-! ### Statements one after another -/

theorem treatsAlike_iff_of_le {E : Type} {rule : RetryRule} {statements : List (ℕ → Option E)}
    (hle : rule.retryCount ≤ rule.maxRetryCount) :
    TreatsAlike rule statements ↔ rule.retryCount +
      (statements.map (attemptsNeeded rule.maxRetryCount)).sum ≤ rule.maxRetryCount := by
  induction statements generalizing rule with
  | nil => exact ⟨fun _ => hle, fun _ => .nil⟩
  | cons outcomes statements ih =>
    rw [TreatsAlike, RetryRule.evaluateAll, List.forall₂_cons, retried_evaluate_iff, List.map_cons,
      List.sum_cons]
    by_cases hneeded :
        attemptsNeeded rule.maxRetryCount outcomes ≤ rule.maxRetryCount - rule.retryCount
    · have hretried := (retried_evaluate_iff rule outcomes).mpr hneeded
      obtain ⟨hattempts, hrule, -⟩ := rule.evaluate_eq outcomes
      have hrest := @ih (rule.evaluate outcomes).2
      rw [hrule, ← hattempts, hretried.attempts] at hrest
      rw [hrule, ← hattempts, hretried.attempts, and_iff_right hneeded, ← Nat.add_assoc]
      have hcount :
          rule.retryCount + attemptsNeeded rule.maxRetryCount outcomes ≤ rule.maxRetryCount := by
        omega
      exact hrest hcount
    · refine ⟨fun h => absurd h.1 hneeded, fun h => ?_⟩
      omega

/-- **The statements that are treated alike**: those that need no more attempts together than one of
them may have. -/
theorem treatsAlike_iff {E : Type} (maxRetryCount : ℤ) (rule : RetryRule)
    (statements : List (ℕ → Option E)) (h : RetryRule.new maxRetryCount = .ok rule) :
    TreatsAlike rule statements ↔
      (statements.map (attemptsNeeded rule.maxRetryCount)).sum ≤ rule.maxRetryCount := by
  rw [RetryRule.new] at h
  split at h
  · obtain rfl := Except.ok.inj h
    rw [treatsAlike_iff_of_le (Nat.zero_le _), Nat.zero_add]
  · exact absurd h (by simp)

/-- A rule for three attempts, a statement that takes two of them, and one that takes the third. -/
theorem treatsAlike_three : ∃ rule, RetryRule.new 3 = .ok rule ∧
    TreatsAlike rule [fun k => if k = 0 then some "fails" else none, fun _ => none] :=
  ⟨⟨3, by decide, 0⟩, rfl, (treatsAlike_iff 3 _ _ rfl).mpr (by decide)⟩

/-- A rule for one attempt, and two statements that succeed: the second is not evaluated. -/
theorem not_treatsAlike_second : ∃ rule, RetryRule.new 1 = .ok rule ∧
    ¬ TreatsAlike rule [fun _ => (none : Option String), fun _ => none] := by
  refine ⟨⟨1, by decide, 0⟩, rfl, ?_⟩
  rw [treatsAlike_iff_of_le (by decide)]
  decide

end Shabdiz
