import Mathlib.Data.List.Count
import Mathlib.Data.List.Nodup
import Shabdiz.Testing.Retry

/-!
# Experiments that are repeated

`ExperimentRunner.runChild` runs the experiment of one parameter in a JVM of its own, in a new
working directory, and reports the result that the JVM prints. It calls itself again if the
experiment was not successful. What it counts is a field of the runner, as in the rule `Retry`; but
here every call resets the field before it returns, so that every child starts with all of its
attempts.

The name of a working directory has the time in it, in milliseconds. `readings` are the readings of
the clock that are still to come. A reading for which the directory exists is passed over.

## Main definitions

* `JUnit.Notification` — what a notifier is told
* `ExperimentChild`, `ChildOutcome`, `ExperimentChild.report` — a parameter and its attempts
* `ExperimentRunner.runChild`, `ExperimentRunner.runChildren` — the code
* `RunsChild`, `RunsChildren` — every child has its own attempts, in directories of their own

## Main results

* `ExperimentChild.report_ends` — what is started is ended once
* `runChildren_runs` — the runs of all children
-/

namespace Shabdiz

/-! ### The code -/

namespace JUnit

/-- What a `RunNotifier` is told about a description. -/
inductive Notification (D : Type) where
  | testStarted (description : D)
  | testFailure (description : D)
  | testFinished (description : D)
deriving DecidableEq

end JUnit

/-- What comes of an attempt. -/
inductive ChildOutcome (D : Type) where
  /-- An exception before the tests are started, after the directory was made or because it was
  not. -/
  | threw (made : Bool)
  /-- The result cannot be decoded. -/
  | undecodable
  /-- The JVM has run the experiment; the descriptions of the failures in its result. -/
  | result (failures : List D)
deriving DecidableEq

namespace ChildOutcome

variable {D : Type} [DecidableEq D]

/-- Whether the working directory was made. -/
def made : ChildOutcome D → Bool
  | threw made => made
  | _ => true

/-- The started process wrote nothing to its error stream, and the child is over. -/
def successful (outcome : ChildOutcome D) : Bool := outcome = .result []

end ChildOutcome

/-- A child of the runner: one parameter of the experiment, with what would come of its attempts. -/
structure ExperimentChild (D : Type) where
  displayName : String
  description : D
  /-- The descriptions that `getMethodDescriptions` makes. -/
  methods : List D
  outcomes : ℕ → ChildOutcome D

/-- The runner, and what it can observe. -/
structure ExperimentRunner (D : Type) where
  retryCount : ℕ
  /-- The working directories that exist, by the display name and the time in their paths. -/
  directories : List (String × String)
  readings : List String
  notifications : List (JUnit.Notification D)

variable {D : Type} [DecidableEq D]

open JUnit.Notification in
/-- What is reported of an attempt. A failure is taken out of the descriptions that are finished in
the end, and reported for the whole experiment once more. -/
def ExperimentChild.report (child : ExperimentChild D) :
    ChildOutcome D → List (JUnit.Notification D)
  | .threw _ => [testFailure child.description]
  | .undecodable =>
    [testStarted child.description] ++ child.methods.map testStarted ++
      [testFailure child.description]
  | .result failures =>
    [testStarted child.description] ++ child.methods.map testStarted ++
      (if failures = [] then [testFinished child.description] else []) ++
      failures.map testFailure ++ failures.map (fun _ => testFailure child.description) ++
      (failures.foldl List.erase child.methods).map testFinished

/-- `constructWorkingDirectoryByDescription`: the first reading for which there is no directory, and
the readings after it; `none` if the clock shows no such time. -/
def constructWorkingDirectory (displayName : String) (directories : List (String × String)) :
    List String → Option (String × List String)
  | [] => none
  | date :: readings =>
    if (displayName, date) ∈ directories then
      constructWorkingDirectory displayName directories readings
    else some (date, readings)

namespace ExperimentRunner

/-- How often a child is run at most. -/
def maxRetryCount : ℕ := 5

/-- The runner after an attempt at the time `date`. -/
def attempt (child : ExperimentChild D) (outcome : ChildOutcome D) (date : String)
    (readings : List String) (r : ExperimentRunner D) : ExperimentRunner D :=
  { r with
    readings := readings
    directories :=
      if outcome.made then r.directories ++ [(child.displayName, date)] else r.directories
    notifications := r.notifications ++ child.report outcome }

/-- The call for a child of which `k` attempts were made, with the times in the names of the working
directories that it takes. -/
def runChild (child : ExperimentChild D) (k : ℕ) (r : ExperimentRunner D) :
    Option (List String × ExperimentRunner D) :=
  match constructWorkingDirectory child.displayName r.directories r.readings with
  | none => none
  | some (date, readings) =>
    let r' := r.attempt child (child.outcomes k) date readings
    if (child.outcomes k).successful then some ([date], { r' with retryCount := 1 })
    else if r.retryCount + 1 ≤ maxRetryCount then
      (runChild child (k + 1) { r' with retryCount := r.retryCount + 1 }).map fun p =>
        (date :: p.1, { p.2 with retryCount := 1 })
    else some ([date], { r' with retryCount := 1 })
termination_by maxRetryCount - r.retryCount

/-- The children, one after another. -/
def runChildren : List (ExperimentChild D) → ExperimentRunner D →
    Option (List (List String) × ExperimentRunner D)
  | [], r => some ([], r)
  | child :: children, r =>
    (r.runChild child 0).bind fun p =>
      (runChildren children p.2).map fun q => (p.1 :: q.1, q.2)

end ExperimentRunner

/-! ### What it is for -/

namespace ExperimentChild

/-- The attempts, by whether they fail. -/
def fails (child : ExperimentChild D) (k : ℕ) : Option Unit :=
  if (child.outcomes k).successful then none else some ()

/-- The directories that are made by the attempts from `k` on, which take the times `dates`. -/
def madeFrom (child : ExperimentChild D) : ℕ → List String → List (String × String)
  | _, [] => []
  | k, date :: dates =>
    (if (child.outcomes k).made then [(child.displayName, date)] else []) ++
      child.madeFrom (k + 1) dates

/-- What is reported of `n` attempts from `k` on. -/
def reportsFrom (child : ExperimentChild D) : ℕ → ℕ → List (JUnit.Notification D)
  | _, 0 => []
  | k, n + 1 => child.report (child.outcomes k) ++ child.reportsFrom (k + 1) n

end ExperimentChild

/-- From the attempt `k` on, at most `n` attempts are made, up to the first successful one, each
with a report, and in a directory that does not exist before. -/
structure RunsChild (child : ExperimentChild D) (n k : ℕ) (r : ExperimentRunner D)
    (dates : List String) (r' : ExperimentRunner D) : Prop where
  attempts : dates.length = attemptsNeeded n fun j => child.fails (k + j)
  reset : r'.retryCount = 1
  notifications : r'.notifications = r.notifications ++ child.reportsFrom k dates.length
  directories : r'.directories = r.directories ++ child.madeFrom k dates
  fresh : r.directories.Nodup → r'.directories.Nodup

/-- Every child has all of its attempts, whatever came of the children before it. -/
inductive RunsChildren : List (ExperimentChild D) → ExperimentRunner D → List (List String) →
    ExperimentRunner D → Prop where
  | nil (r : ExperimentRunner D) : RunsChildren [] r [] r
  | cons {child : ExperimentChild D} {children : List (ExperimentChild D)}
    {r r' r'' : ExperimentRunner D} {dates : List String} {rest : List (List String)}
    (head : RunsChild child ExperimentRunner.maxRetryCount 0 r dates r')
    (tail : RunsChildren children r' rest r'') :
    RunsChildren (child :: children) r (dates :: rest) r''

/-- The clock goes on: no time comes up twice, and none is in the path of a directory. -/
structure ClockAdvances (r : ExperimentRunner D) : Prop where
  nodup : r.readings.Nodup
  unused : ∀ date ∈ r.readings, ∀ displayName, (displayName, date) ∉ r.directories

/-! ### Reports -/

section Reports

variable {child : ExperimentChild D} {failures : List D}

/-- Taking out one description after another leaves those that are not among them. -/
theorem mem_foldl_erase {l : List D} (hl : l.Nodup) {d : D} :
    d ∈ failures.foldl List.erase l ↔ d ∈ l ∧ d ∉ failures := by
  induction failures generalizing l with
  | nil => simp
  | cons failure failures ih =>
    rw [List.foldl_cons, ih (hl.erase failure), hl.mem_erase_iff, List.mem_cons]
    tauto

theorem nodup_foldl_erase {l : List D} (hl : l.Nodup) : (failures.foldl List.erase l).Nodup := by
  induction failures generalizing l with
  | nil => exact hl
  | cons failure failures ih => exact ih (hl.erase failure)

theorem count_map_of_ne {α β : Type*} [DecidableEq β] {f : α → β} {b : β} (h : ∀ a, f a ≠ b)
    (l : List α) : (l.map f).count b = 0 := by
  refine List.count_eq_zero.mpr fun hmem => ?_
  obtain ⟨a, -, ha⟩ := List.mem_map.mp hmem
  exact h a ha

/-- **What is started is ended once.** If the JVM has run the experiment, then each of its methods
is started once, and finished once exactly if it is not among the failures. -/
theorem ExperimentChild.report_ends (hmethods : child.methods.Nodup)
    (hdescription : child.description ∉ child.methods) {d : D} (hd : d ∈ child.methods) :
    (child.report (.result failures)).count (.testStarted d) = 1 ∧
      (child.report (.result failures)).count (.testFinished d) =
        if d ∈ failures then 0 else 1 := by
  have hne : child.description ≠ d := by
    rintro rfl
    exact hdescription hd
  have hstarted :
      (child.methods.map JUnit.Notification.testStarted).count (.testStarted d) = 1 := by
    rw [List.count_map_of_injective _ _ fun _ _ h => by cases h; rfl]
    exact List.count_eq_one_of_mem hmethods hd
  have hfinished : ((failures.foldl List.erase child.methods).map
      JUnit.Notification.testFinished).count (.testFinished d) =
        if d ∈ failures then 0 else 1 := by
    rw [List.count_map_of_injective _ _ fun _ _ h => by cases h; rfl]
    split
    · next hmem =>
      exact List.count_eq_zero_of_not_mem fun h => ((mem_foldl_erase hmethods).mp h).2 hmem
    · next hmem =>
      exact List.count_eq_one_of_mem (nodup_foldl_erase hmethods)
        ((mem_foldl_erase hmethods).mpr ⟨hd, hmem⟩)
  rw [ExperimentChild.report]
  simp only [List.count_append, hstarted, hfinished]
  rw [count_map_of_ne (f := fun _ : D => JUnit.Notification.testFailure child.description)
      (by simp), count_map_of_ne (f := JUnit.Notification.testFailure) (by simp)]
  by_cases hnone : failures = [] <;> simp [hnone, hne, count_map_of_ne, List.count_replicate]

end Reports

/-! ### One child -/

section Child

variable {child : ExperimentChild D} {n k : ℕ} {r r' : ExperimentRunner D}
  {date displayName : String}
  {dates readings rest : List String} {directories : List (String × String)}

theorem constructWorkingDirectory_eq_some
    (h : constructWorkingDirectory displayName directories readings = some (date, rest)) :
    (displayName, date) ∉ directories ∧ ∃ passed, readings = passed ++ date :: rest := by
  induction readings with
  | nil => cases h
  | cons first readings ih =>
    rw [constructWorkingDirectory] at h
    split at h
    · obtain ⟨hnew, passed, rfl⟩ := ih h
      exact ⟨hnew, first :: passed, rfl⟩
    · next hnew =>
      obtain ⟨rfl, rfl⟩ := Prod.mk.inj (Option.some.inj h)
      exact ⟨hnew, [], rfl⟩

theorem directories_attempt (outcome : ChildOutcome D) :
    (r.attempt child outcome date readings).directories =
      r.directories ++ if outcome.made then [(child.displayName, date)] else [] := by
  rw [ExperimentRunner.attempt]
  split <;> simp

/-- An attempt makes a directory that is new, or none. -/
theorem nodup_attempt (hnew : (child.displayName, date) ∉ r.directories)
    (hnodup : r.directories.Nodup) (outcome : ChildOutcome D) (readings : List String) :
    (r.attempt child outcome date readings).directories.Nodup := by
  rw [directories_attempt]
  split
  · refine List.nodup_append.mpr ⟨hnodup, List.nodup_singleton _, ?_⟩
    rintro a ha b hb rfl
    exact hnew (List.mem_singleton.mp hb ▸ ha)
  · rwa [List.append_nil]

/-- One attempt, after which the child is done with. -/
theorem runsChild_last (hnew : (child.displayName, date) ∉ r.directories)
    (h : attemptsNeeded n (fun j => child.fails (k + j)) = 1) :
    RunsChild child n k r [date]
      { r.attempt child (child.outcomes k) date readings with retryCount := 1 } where
  attempts := h.symm
  reset := rfl
  notifications := by simp [ExperimentRunner.attempt, ExperimentChild.reportsFrom]
  directories := by
    show (r.attempt child (child.outcomes k) date readings).directories = _
    rw [directories_attempt]
    simp [ExperimentChild.madeFrom]
  fresh hnodup := nodup_attempt hnew hnodup (child.outcomes k) readings

theorem attemptsNeeded_succ_of_successful (h : (child.outcomes k).successful = true) :
    attemptsNeeded (n + 1) (fun j => child.fails (k + j)) = 1 := by
  have hfirst : child.fails (k + 0) = none := if_pos h
  simp only [attemptsNeeded, hfirst]

/-- An attempt that fails, before others. -/
theorem RunsChild.before (hnew : (child.displayName, date) ∉ r.directories)
    (hfails : child.fails k = some ()) {retryCount : ℕ}
    (h : RunsChild child n (k + 1)
      { r.attempt child (child.outcomes k) date readings with retryCount := retryCount } dates r') :
    RunsChild child (n + 1) k r (date :: dates) { r' with retryCount := 1 } where
  attempts := by
    have hshift : (fun j => child.fails (k + 1 + j)) = fun j => child.fails (k + (j + 1)) := by
      funext j
      congr 1
      omega
    have hfirst : child.fails (k + 0) = some () := hfails
    rw [List.length_cons, h.attempts, hshift]
    simp only [attemptsNeeded, hfirst]
  reset := rfl
  notifications := by
    show r'.notifications = _
    rw [h.notifications]
    simp [ExperimentRunner.attempt, ExperimentChild.reportsFrom]
  directories := by
    show r'.directories = _
    rw [h.directories]
    show (r.attempt child (child.outcomes k) date readings).directories ++ _ = _
    rw [directories_attempt, ExperimentChild.madeFrom, List.append_assoc]
  fresh hnodup := h.fresh (nodup_attempt hnew hnodup (child.outcomes k) readings)

/-- **One child**, with the attempts that are left. -/
theorem runsChild_of_runChild (hcount : r.retryCount ≤ ExperimentRunner.maxRetryCount)
    (h : r.runChild child k = some (dates, r')) :
    RunsChild child (ExperimentRunner.maxRetryCount + 1 - r.retryCount) k r dates r' := by
  induction hleft : ExperimentRunner.maxRetryCount - r.retryCount
    generalizing k r dates r' with
  | zero =>
    have hone : ExperimentRunner.maxRetryCount + 1 - r.retryCount = 0 + 1 := by omega
    rw [hone]
    rw [ExperimentRunner.runChild] at h
    split at h
    · cases h
    · next date readings hdate =>
      obtain ⟨hnew, -⟩ := constructWorkingDirectory_eq_some hdate
      split at h
      · next hsuccess =>
        obtain ⟨rfl, rfl⟩ := Prod.mk.inj (Option.some.inj h)
        exact runsChild_last hnew (attemptsNeeded_succ_of_successful hsuccess)
      · next hfails =>
        rw [if_neg (by omega)] at h
        obtain ⟨rfl, rfl⟩ := Prod.mk.inj (Option.some.inj h)
        refine runsChild_last hnew ?_
        have hfirst : child.fails (k + 0) = some () := if_neg hfails
        simp only [attemptsNeeded, hfirst]
  | succ m ih =>
    have hsucc : ExperimentRunner.maxRetryCount + 1 - r.retryCount = m + 1 + 1 := by omega
    rw [hsucc]
    rw [ExperimentRunner.runChild] at h
    split at h
    · cases h
    · next date readings hdate =>
      obtain ⟨hnew, -⟩ := constructWorkingDirectory_eq_some hdate
      split at h
      · next hsuccess =>
        obtain ⟨rfl, rfl⟩ := Prod.mk.inj (Option.some.inj h)
        exact runsChild_last hnew (attemptsNeeded_succ_of_successful hsuccess)
      · next hfails =>
        rw [if_pos (by omega)] at h
        obtain ⟨⟨later, r₁⟩, hrest, hr⟩ := Option.map_eq_some_iff.mp h
        obtain ⟨rfl, rfl⟩ := Prod.mk.inj hr
        have hlast : ExperimentRunner.maxRetryCount + 1 - (r.retryCount + 1) = m + 1 := by omega
        have hrun := ih (by show r.retryCount + 1 ≤ _; omega) hrest
          (by show _ - (r.retryCount + 1) = m; omega)
        simp only [hlast] at hrun
        exact hrun.before hnew (if_neg hfails)

/-! ### A clock that goes on -/

/-- The time that is taken for a directory does not come up again. -/
theorem ClockAdvances.attempt (h : ClockAdvances r) (hreadings : r.readings = date :: readings)
    (outcome : ChildOutcome D) (retryCount : ℕ) :
    ClockAdvances
      { r.attempt child outcome date readings with retryCount := retryCount } where
  nodup := (List.nodup_cons.mp (hreadings ▸ h.nodup)).2
  unused later hlater name := by
    show (name, later) ∉ (r.attempt child outcome date readings).directories
    have hnew := h.unused later (hreadings ▸ List.mem_cons_of_mem _ hlater) name
    have hne : later ≠ date := by
      rintro rfl
      exact (List.nodup_cons.mp (hreadings ▸ h.nodup)).1 hlater
    rw [directories_attempt, List.mem_append]
    rintro (hold | hmade)
    · exact hnew hold
    · split at hmade
      · exact hne (Prod.mk.inj (List.mem_singleton.mp hmade)).2
      · cases hmade

omit [DecidableEq D] in
/-- The next reading is taken. -/
theorem ClockAdvances.constructWorkingDirectory_eq (h : ClockAdvances r)
    (hreadings : r.readings = date :: readings) (displayName : String) :
    constructWorkingDirectory displayName r.directories r.readings = some (date, readings) := by
  have hnew := h.unused date (by simp [hreadings]) displayName
  rw [hreadings, constructWorkingDirectory, if_neg hnew]

/-- The last attempt: a successful one, or the one with which the count is used up. -/
theorem runChild_eq_last
    (hdate : constructWorkingDirectory child.displayName r.directories r.readings =
      some (date, readings))
    (h : (child.outcomes k).successful = true ∨ ExperimentRunner.maxRetryCount ≤ r.retryCount) :
    r.runChild child k =
      some ([date], { r.attempt child (child.outcomes k) date readings with retryCount := 1 }) := by
  rw [ExperimentRunner.runChild, hdate]
  by_cases hsuccess : (child.outcomes k).successful = true
  · simp [hsuccess]
  · have hlast : ¬ r.retryCount + 1 ≤ ExperimentRunner.maxRetryCount := by
      have := h.resolve_left hsuccess
      omega
    simp [hsuccess, hlast]

/-- **A child comes to its end** if the clock has as many times to come as there are attempts
left. -/
theorem ClockAdvances.runChild (hclock : ClockAdvances r) (child : ExperimentChild D) (k : ℕ)
    (hcount : r.retryCount ≤ ExperimentRunner.maxRetryCount)
    (hlength : ExperimentRunner.maxRetryCount + 1 - r.retryCount ≤ r.readings.length) :
    ∃ dates r', r.runChild child k = some (dates, r') ∧ ClockAdvances r' ∧
      r.readings.length ≤
        r'.readings.length + (ExperimentRunner.maxRetryCount + 1 - r.retryCount) := by
  induction hleft : ExperimentRunner.maxRetryCount - r.retryCount generalizing k r with
  | zero =>
    obtain ⟨date, readings, hreadings⟩ :=
      List.exists_cons_of_length_pos (by omega : 0 < r.readings.length)
    have hdate := hclock.constructWorkingDirectory_eq hreadings child.displayName
    refine ⟨[date], _, runChild_eq_last hdate (.inr (by omega)),
      hclock.attempt hreadings (child.outcomes k) 1, ?_⟩
    show r.readings.length ≤ readings.length + _
    rw [hreadings, List.length_cons]
    omega
  | succ m ih =>
    obtain ⟨date, readings, hreadings⟩ :=
      List.exists_cons_of_length_pos (by omega : 0 < r.readings.length)
    have hdate := hclock.constructWorkingDirectory_eq hreadings child.displayName
    have hcons : r.readings.length = readings.length + 1 := by rw [hreadings, List.length_cons]
    by_cases hsuccess : (child.outcomes k).successful = true
    · refine ⟨[date], _, runChild_eq_last hdate (.inl hsuccess),
        hclock.attempt hreadings (child.outcomes k) 1, ?_⟩
      show r.readings.length ≤ readings.length + _
      omega
    · obtain ⟨dates, r', hrun, hclock', hlength'⟩ :=
        ih (hclock.attempt hreadings (child.outcomes k) (r.retryCount + 1)) (k + 1)
          (by show r.retryCount + 1 ≤ _; omega)
          (by show _ + 1 - (r.retryCount + 1) ≤ readings.length; omega)
          (by show _ - (r.retryCount + 1) = m; omega)
      refine ⟨date :: dates, { r' with retryCount := 1 }, ?_, ⟨hclock'.nodup, hclock'.unused⟩, ?_⟩
      · rw [ExperimentRunner.runChild, hdate]
        simp only [hsuccess, Bool.false_eq_true, if_false]
        rw [if_pos (by omega), hrun]
        rfl
      · have hreadings' : readings.length ≤
            r'.readings.length + (ExperimentRunner.maxRetryCount + 1 - (r.retryCount + 1)) :=
          hlength'
        show r.readings.length ≤ r'.readings.length + _
        omega

end Child

section Main

variable {children : List (ExperimentChild D)} {r r' : ExperimentRunner D}
  {dates : List (List String)}

theorem runsChildren_of_runChildren (hcount : r.retryCount = 1)
    (h : r.runChildren children = some (dates, r')) : RunsChildren children r dates r' := by
  induction children generalizing r dates with
  | nil =>
    obtain ⟨rfl, rfl⟩ := Prod.mk.inj (Option.some.inj h)
    exact .nil r
  | cons child children ih =>
    obtain ⟨⟨first, r₁⟩, hfirst, hrest⟩ := Option.bind_eq_some_iff.mp h
    obtain ⟨⟨rest, r₂⟩, hlater, hr⟩ := Option.map_eq_some_iff.mp hrest
    obtain ⟨rfl, rfl⟩ := Prod.mk.inj hr
    have hchild := runsChild_of_runChild (by rw [hcount]; decide) hfirst
    rw [hcount] at hchild
    exact .cons hchild (ih hchild.reset hlater)

/-- **Every child has its own attempts.** However often the children before it have failed, a child
of a new runner is attempted up to its first success and at most five times, every attempt is
reported, and no two attempts have one working directory. The run comes to its end if the clock goes
on for five times as many readings as there are children. -/
theorem runChildren_runs (hcount : r.retryCount = 1) :
    (∀ dates r', r.runChildren children = some (dates, r') → RunsChildren children r dates r') ∧
      (ClockAdvances r →
        ExperimentRunner.maxRetryCount * children.length ≤ r.readings.length →
        ∃ dates r', r.runChildren children = some (dates, r')) := by
  refine ⟨fun dates r' => runsChildren_of_runChildren hcount, fun hclock hlength => ?_⟩
  induction children generalizing r with
  | nil => exact ⟨[], r, rfl⟩
  | cons child children ih =>
    have hfive : ExperimentRunner.maxRetryCount + 1 - r.retryCount =
        ExperimentRunner.maxRetryCount := by rw [hcount, Nat.add_sub_cancel]
    rw [List.length_cons, Nat.mul_succ] at hlength
    obtain ⟨first, r₁, hfirst, hclock₁, hleft⟩ :=
      hclock.runChild child 0 (by rw [hcount]; decide) (by omega)
    have hreset := (runsChild_of_runChild (by rw [hcount]; decide) hfirst).reset
    obtain ⟨rest, r₂, hrest⟩ := ih hreset hclock₁ (by omega)
    refine ⟨first :: rest, r₂, ?_⟩
    rw [ExperimentRunner.runChildren, hfirst, Option.bind_some, hrest]
    rfl

/-- A child that fails always, and one that succeeds with its second attempt. -/
def alwaysAndOnce : List (ExperimentChild String) :=
  [⟨"[0]", "[0]", ["test[0]"], fun _ => .result ["test[0]"]⟩,
    ⟨"[1]", "[1]", ["test[1]"], fun k => if k = 0 then .threw true else .result []⟩]

/-- A runner of ten children, and one repetition of each. -/
def tenReadings : ExperimentRunner String :=
  ⟨1, [], ["a", "b", "c", "d", "e", "f", "g", "h", "i", "j"], []⟩

/-- The second child has its own attempts although the first has used up all of its five. -/
theorem runChildren_runs_alwaysAndOnce :
    ∃ dates r', tenReadings.runChildren alwaysAndOnce = some (dates, r') ∧
      dates.map List.length = [5, 2] := by
  have hcount : tenReadings.retryCount = 1 := rfl
  have hclock : ClockAdvances tenReadings := ⟨by decide, by simp [tenReadings]⟩
  obtain ⟨hruns, hends⟩ := @runChildren_runs _ _ alwaysAndOnce tenReadings hcount
  obtain ⟨dates, r', hrun⟩ := hends hclock (by decide)
  refine ⟨dates, r', hrun, ?_⟩
  cases hruns dates r' hrun with
  | cons first rest =>
    cases rest with
    | cons second rest =>
      cases rest with
      | nil =>
        rw [List.map_cons, List.map_cons, first.attempts, second.attempts]
        decide

end Main

end Shabdiz
