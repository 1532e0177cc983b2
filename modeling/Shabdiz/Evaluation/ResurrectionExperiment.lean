import Mathlib.Data.Int.Order.Lemmas
import Mathlib.Data.List.Perm.Basic
import Shabdiz.Concurrency.Machine

/-!
# Killing a portion of a network

`killPortionOfNetwork` takes one candidate after the other out of a list of the descriptors, at a
random index, and has each killed by a thread of an executor, which afterwards adds it to the list
that is returned. The bound that the generator is asked with is computed from the number of
descriptors that there were at first and the number of candidates that were taken.

After each submission the caller waits for everything that has been submitted. What is random is
part of the action: every index that the generator may return is one.

## Main definitions

* `ResurrectionExperiment`, `ApplicationDescriptors` — what the call is made for
* `PortionState`, `portionMachine` — one call, with the threads that kill
* `PortionKilled` — the right number of distinct members was killed, each once, and is returned
* `PortionProgress` — where a call can be

## Main results

* `PortionProgress.step` — what each step does
* `killPortionOfNetwork_kills` — the bounds are positive, and the call comes to its end
-/

namespace Shabdiz

/-- An experiment, with the kill portion that its constructor has validated. -/
structure ResurrectionExperiment where
  networkSize : Int32
  killPortion : Int32
  validKillPortion : 0 ≤ killPortion.toInt ∧ killPortion.toInt ≤ 100

namespace ResurrectionExperiment

/-- `none` is the `IllegalArgumentException` of `validateKillPortion`. -/
def new (networkSize killPortion : Int32) : Option ResurrectionExperiment :=
  if h : 0 ≤ killPortion.toInt ∧ killPortion.toInt ≤ 100 then some ⟨networkSize, killPortion, h⟩
  else none

/-- How many descriptors are to be killed, in `int` arithmetic. -/
def getNumberOfKillCandidates (e : ResurrectionExperiment) : Int32 :=
  e.networkSize * e.killPortion / 100

end ResurrectionExperiment

/-- What `getApplicationDescriptors` returns, in the order in which the set is gone through. -/
structure ApplicationDescriptors (δ : Type) where
  elements : List δ
  nodup : elements.Nodup

/-- The control points of a task. -/
inductive PortionTaskPoint where
  /-- `kill` is still to be called. -/
  | kill
  /-- The candidate is killed, and still to be added to the list. -/
  | add
  | done
deriving DecidableEq

/-- The control points of the call. -/
inductive PortionPoint (δ : Type) where
  /-- Tests `i < kill_count`. -/
  | loop
  /-- Asks for the index of a candidate. -/
  | choose
  | submit (killCandidate : δ)
  /-- Waits for the tasks from index `j` on. -/
  | await (j : ℕ)
  | returned
  | threw
deriving DecidableEq

/-- The state of a call. -/
structure PortionState (δ : Type) where
  i : ℕ
  descriptorsList : List δ
  killedDescriptors : List δ
  /-- The tasks that were submitted, which are also what `awaits` has. -/
  tasks : List (δ × PortionTaskPoint)
  caller : PortionPoint δ
  /-- What was killed, in order. No code reads it. -/
  kills : List δ
  /-- The bounds that the generator was asked with. No code reads them. -/
  bounds : List ℤ
deriving DecidableEq

/-- What happens next. -/
inductive PortionAction where
  /-- The caller goes on; the generator, if it is asked, returns `index`. -/
  | caller (index : ℕ)
  /-- The thread with the `k`th task goes on. -/
  | task (k : ℕ)
deriving DecidableEq

variable {δ : Type}

namespace PortionState

/-- The start of the loop: nothing chosen, and every descriptor left. -/
def initial (descriptors : ApplicationDescriptors δ) : PortionState δ :=
  ⟨0, descriptors.elements, [], [], .loop, [], []⟩

/-- `random.nextInt(descriptors_count - i)` and `descriptors_list.remove`. The generator throws if
the bound is not positive, and `remove` if the index is not in the list. -/
def takeCandidate (descriptorsCount index : ℕ) (s : PortionState δ) : Option (PortionState δ) :=
  let bound : ℤ := descriptorsCount - s.i
  let asked := { s with bounds := s.bounds ++ [bound] }
  if bound ≤ 0 then some { asked with caller := .threw }
  else if bound ≤ index then none
  else match s.descriptorsList[index]? with
    | none => some { asked with caller := .threw }
    | some killCandidate =>
      some { asked with
        descriptorsList := s.descriptorsList.eraseIdx index
        caller := .submit killCandidate }

/-- One step of the caller. -/
def nextCaller (killCount : ℤ) (descriptorsCount index : ℕ) (s : PortionState δ) :
    Option (PortionState δ) :=
  match s.caller with
  | .loop => some { s with caller := if (s.i : ℤ) < killCount then .choose else .returned }
  | .choose => s.takeCandidate descriptorsCount index
  | .submit killCandidate =>
    some { s with tasks := s.tasks ++ [(killCandidate, .kill)], caller := .await 0 }
  | .await j =>
    match s.tasks[j]? with
    | none => some { s with i := s.i + 1, caller := .loop }
    | some (_, .done) => some { s with caller := .await (j + 1) }
    | some _ => none
  | .returned | .threw => none

/-- One step of a thread of the executor. No kill fails. -/
def nextTask (k : ℕ) (s : PortionState δ) : Option (PortionState δ) :=
  match s.tasks[k]? with
  | some (killCandidate, .kill) =>
    some { s with
      kills := s.kills ++ [killCandidate]
      tasks := s.tasks.set k (killCandidate, .add) }
  | some (killCandidate, .add) =>
    some { s with
      killedDescriptors := s.killedDescriptors ++ [killCandidate]
      tasks := s.tasks.set k (killCandidate, .done) }
  | _ => none

end PortionState

/-- One call of `killPortionOfNetwork`. -/
def portionMachine (e : ResurrectionExperiment) (descriptors : ApplicationDescriptors δ) :
    Machine (PortionState δ) PortionAction where
  init s := s = .initial descriptors
  step s
    | .caller index =>
      s.nextCaller e.getNumberOfKillCandidates.toInt descriptors.elements.length index
    | .task k => s.nextTask k

/-- The call has returned the list of what was killed: `n` different descriptors, each killed once,
in the order in which they were killed. Nothing more happens. -/
structure PortionKilled (e : ResurrectionExperiment) (descriptors : ApplicationDescriptors δ)
    (n : ℕ) (s : PortionState δ) : Prop where
  returned : s.caller = .returned
  kills : s.kills = s.killedDescriptors
  length : s.killedDescriptors.length = n
  nodup : s.killedDescriptors.Nodup
  members : ∀ d ∈ s.killedDescriptors, d ∈ descriptors.elements
  final : ∀ a, (portionMachine e descriptors).step s a = none

/-! ### Where a call can be -/

/-- A list of tasks that are done. -/
def doneTasks (finished : List δ) : List (δ × PortionTaskPoint) := finished.map (·, .done)

/-- The states of a call that is to kill `n` of the descriptors. All tasks but the last are done, so
what was killed and what was added are the same, but for the last. -/
inductive PortionProgress (descriptors : List δ) (n : ℕ) : PortionState δ → Prop where
  | loop {finished rest : List δ} {bounds : List ℤ}
      (hperm : (finished ++ rest).Perm descriptors) (hn : finished.length ≤ n)
      (hbounds : ∀ b ∈ bounds, 0 < b) :
      PortionProgress descriptors n
        ⟨finished.length, rest, finished, doneTasks finished, .loop, finished, bounds⟩
  | choose {finished rest : List δ} {bounds : List ℤ}
      (hperm : (finished ++ rest).Perm descriptors) (hn : finished.length < n)
      (hbounds : ∀ b ∈ bounds, 0 < b) :
      PortionProgress descriptors n
        ⟨finished.length, rest, finished, doneTasks finished, .choose, finished, bounds⟩
  | submit {finished rest : List δ} {killCandidate : δ} {bounds : List ℤ}
      (hperm : (finished ++ killCandidate :: rest).Perm descriptors) (hn : finished.length < n)
      (hbounds : ∀ b ∈ bounds, 0 < b) :
      PortionProgress descriptors n
        ⟨finished.length, rest, finished, doneTasks finished, .submit killCandidate, finished,
          bounds⟩
  | kill {finished rest : List δ} {killCandidate : δ} {j : ℕ} {bounds : List ℤ}
      (hperm : (finished ++ killCandidate :: rest).Perm descriptors) (hn : finished.length < n)
      (hj : j ≤ finished.length) (hbounds : ∀ b ∈ bounds, 0 < b) :
      PortionProgress descriptors n
        ⟨finished.length, rest, finished, doneTasks finished ++ [(killCandidate, .kill)], .await j,
          finished, bounds⟩
  | add {finished rest : List δ} {killCandidate : δ} {j : ℕ} {bounds : List ℤ}
      (hperm : (finished ++ killCandidate :: rest).Perm descriptors) (hn : finished.length < n)
      (hj : j ≤ finished.length) (hbounds : ∀ b ∈ bounds, 0 < b) :
      PortionProgress descriptors n
        ⟨finished.length, rest, finished, doneTasks finished ++ [(killCandidate, .add)], .await j,
          finished ++ [killCandidate], bounds⟩
  | done {finished rest : List δ} {killCandidate : δ} {j : ℕ} {bounds : List ℤ}
      (hperm : (finished ++ killCandidate :: rest).Perm descriptors) (hn : finished.length < n)
      (hj : j ≤ finished.length + 1) (hbounds : ∀ b ∈ bounds, 0 < b) :
      PortionProgress descriptors n
        ⟨finished.length, rest, finished ++ [killCandidate],
          doneTasks (finished ++ [killCandidate]), .await j, finished ++ [killCandidate], bounds⟩
  | returned {finished rest : List δ} {bounds : List ℤ}
      (hperm : (finished ++ rest).Perm descriptors) (hn : finished.length = n)
      (hbounds : ∀ b ∈ bounds, 0 < b) :
      PortionProgress descriptors n
        ⟨finished.length, rest, finished, doneTasks finished, .returned, finished, bounds⟩

namespace PortionState

/-- How many steps a call that is to kill `n` descriptors is from its end, at most. -/
def distance (n : ℕ) (s : PortionState δ) : ℕ :=
  match s.caller with
  | .loop => (n - s.i) * (n + 6) + 1
  | .choose => (n - s.i) * (n + 6)
  | .submit _ => (n - s.i) * (n + 6) - 1
  | .await j =>
    (n - (s.i + 1)) * (n + 6) + 2 + (s.tasks.length - j) + (s.tasks.length - s.kills.length) +
      (s.tasks.length - s.killedDescriptors.length)
  | .returned | .threw => 0

end PortionState

section Steps

variable {s t : PortionState δ} {finished : List δ} {killCandidate : δ} {p : PortionTaskPoint}
  {j k n : ℕ}

theorem length_doneTasks : (doneTasks finished).length = finished.length := List.length_map _

theorem doneTasks_concat :
    doneTasks (finished ++ [killCandidate]) = doneTasks finished ++ [(killCandidate, .done)] :=
  List.map_append

theorem exists_getElem?_doneTasks (hj : j < finished.length) :
    ∃ d, (doneTasks finished)[j]? = some (d, .done) :=
  ⟨finished[j], by rw [doneTasks, List.getElem?_map, List.getElem?_eq_getElem hj]; rfl⟩

/-- A task that is done has no step. -/
theorem nextTask_doneTasks (hs : s.tasks = doneTasks finished) : s.nextTask k = none := by
  rw [PortionState.nextTask, hs]
  by_cases hk : k < finished.length
  · obtain ⟨d, hd⟩ := exists_getElem?_doneTasks hk
    rw [hd]
  · rw [List.getElem?_eq_none (by rw [length_doneTasks]; omega)]

/-- Only the last task has a step. -/
theorem eq_length_of_nextTask (hs : s.tasks = doneTasks finished ++ [(killCandidate, p)])
    (h : s.nextTask k = some t) : k = finished.length := by
  by_contra hne
  rw [PortionState.nextTask, hs] at h
  by_cases hk : k < finished.length
  · obtain ⟨d, hd⟩ := exists_getElem?_doneTasks hk
    rw [List.getElem?_append_left (by rwa [length_doneTasks]), hd] at h
    cases h
  · rw [List.getElem?_eq_none (by rw [List.length_append, length_doneTasks]; simp; omega)] at h
    cases h

theorem getElem?_last :
    (doneTasks finished ++ [(killCandidate, p)])[finished.length]? = some (killCandidate, p) := by
  rw [List.getElem?_append_right (by rw [length_doneTasks]), length_doneTasks, Nat.sub_self]
  rfl

theorem set_last (q : PortionTaskPoint) :
    (doneTasks finished ++ [(killCandidate, p)]).set finished.length (killCandidate, q) =
      doneTasks finished ++ [(killCandidate, q)] := by
  rw [List.set_append_right _ _ (by rw [length_doneTasks]), length_doneTasks, Nat.sub_self]
  rfl

end Steps

section Awaiting

variable {killCount : ℤ} {descriptorsCount index j : ℕ} {s t : PortionState δ} {finished : List δ}

/-- A task that is done is not waited for. -/
theorem nextCaller_await_done {tasks : List (δ × PortionTaskPoint)} (hcaller : s.caller = .await j)
    (hs : s.tasks = doneTasks finished ++ tasks) (hj : j < finished.length)
    (h : s.nextCaller killCount descriptorsCount index = some t) :
    t = { s with caller := .await (j + 1) } := by
  obtain ⟨d, hd⟩ := exists_getElem?_doneTasks hj
  have htask : s.tasks[j]? = some (d, .done) := by
    rw [hs, List.getElem?_append_left (by rwa [length_doneTasks]), hd]
  rw [PortionState.nextCaller, hcaller] at h
  simp only [htask] at h
  exact (Option.some.inj h).symm

/-- The last task is waited for until it is done. -/
theorem nextCaller_await_last {killCandidate : δ} {p : PortionTaskPoint}
    (hcaller : s.caller = .await finished.length)
    (hs : s.tasks = doneTasks finished ++ [(killCandidate, p)]) (hp : p ≠ .done) :
    s.nextCaller killCount descriptorsCount index = none := by
  rw [PortionState.nextCaller, hcaller, hs]
  simp only [getElem?_last]
  cases p with
  | kill | add => rfl
  | done => exact absurd rfl hp

end Awaiting

section Progress

variable {descriptors : List δ} {n k index : ℕ} {s t : PortionState δ}

/-- A candidate is taken, since the bound of its index is the number of those that are left. -/
theorem PortionProgress.nextCaller_choose {finished rest : List δ} {bounds : List ℤ}
    (hperm : (finished ++ rest).Perm descriptors) (hlt : finished.length < n)
    (hbounds : ∀ b ∈ bounds, 0 < b) (hn : n ≤ descriptors.length)
    (hs : s = ⟨finished.length, rest, finished, doneTasks finished, .choose, finished, bounds⟩)
    (ht : s.nextCaller n descriptors.length index = some t) :
    PortionProgress descriptors n t ∧ t.distance n < s.distance n := by
  subst hs
  have hlength := hperm.length_eq
  rw [List.length_append] at hlength
  have hbound : (0 : ℤ) < descriptors.length - finished.length := by omega
  simp only [PortionState.nextCaller, PortionState.takeCandidate, if_neg hbound.not_ge] at ht
  split at ht
  · cases ht
  · -- The bound is the length of the list.
    have hindex : index < rest.length := by omega
    rw [List.getElem?_eq_getElem hindex] at ht
    obtain rfl := Option.some.inj ht
    have htaken : (finished ++ rest[index] :: rest.eraseIdx index).Perm descriptors :=
      ((List.getElem_cons_eraseIdx_perm hindex).append_left finished).trans hperm
    refine ⟨.submit htaken hlt (List.forall_mem_append.mpr ⟨hbounds, ?_⟩), ?_⟩
    · simpa using hbound
    · have hpos : 0 < (n - finished.length) * (n + 6) := Nat.mul_pos (by omega) (by omega)
      exact Nat.sub_lt hpos Nat.one_pos

/-- The tasks are waited for one by one, and then the next round begins. -/
theorem PortionProgress.nextCaller_done {finished rest : List δ} {killCandidate : δ} {j : ℕ}
    {bounds : List ℤ} (hperm : (finished ++ killCandidate :: rest).Perm descriptors)
    (hlt : finished.length < n) (hj : j ≤ finished.length + 1) (hbounds : ∀ b ∈ bounds, 0 < b)
    (hs : s = ⟨finished.length, rest, finished ++ [killCandidate],
      doneTasks (finished ++ [killCandidate]), .await j, finished ++ [killCandidate], bounds⟩)
    (ht : s.nextCaller n descriptors.length index = some t) :
    PortionProgress descriptors n t ∧ t.distance n < s.distance n := by
  subst hs
  have hlength : (finished ++ [killCandidate]).length = finished.length + 1 :=
    List.length_append
  rcases hj.lt_or_eq with hlast | rfl
  · have htasks : doneTasks (finished ++ [killCandidate]) =
        doneTasks (finished ++ [killCandidate]) ++ [] := (List.append_nil _).symm
    obtain rfl := nextCaller_await_done rfl htasks (by omega) ht
    refine ⟨.done hperm hlt hlast hbounds, ?_⟩
    simp only [PortionState.distance, length_doneTasks, hlength]
    omega
  · -- All tasks have been waited for.
    have hnone : (doneTasks (finished ++ [killCandidate]))[finished.length + 1]? = none :=
      List.getElem?_eq_none (by rw [length_doneTasks, hlength])
    simp only [PortionState.nextCaller, hnone] at ht
    obtain rfl := Option.some.inj ht
    have hfinished : (finished ++ [killCandidate] ++ rest).Perm descriptors := by
      rwa [List.append_assoc]
    have hprogress := PortionProgress.loop hfinished (n := n) (by omega) hbounds
    rw [hlength] at hprogress
    refine ⟨hprogress, ?_⟩
    simp only [PortionState.distance]
    omega

/-- **What each step of the caller does**: it comes closer to the end. -/
theorem PortionProgress.nextCaller (h : PortionProgress descriptors n s)
    (hn : n ≤ descriptors.length)
    (ht : s.nextCaller n descriptors.length index = some t) :
    PortionProgress descriptors n t ∧ t.distance n < s.distance n := by
  cases h with
  | @loop finished rest bounds hperm hle hbounds =>
    obtain rfl := Option.some.inj ht
    by_cases hlt : finished.length < n
    · have hint : (finished.length : ℤ) < n := Int.ofNat_lt.mpr hlt
      simp only [if_pos hint]
      exact ⟨.choose hperm hlt hbounds, Nat.lt_succ_self _⟩
    · have hint : ¬ (finished.length : ℤ) < n := by omega
      simp only [if_neg hint]
      exact ⟨.returned hperm (by omega) hbounds, Nat.succ_pos _⟩
  | choose hperm hlt hbounds => exact PortionProgress.nextCaller_choose hperm hlt hbounds hn rfl ht
  | @submit finished rest killCandidate bounds hperm hlt hbounds =>
    obtain rfl := Option.some.inj ht
    refine ⟨.kill hperm hlt (Nat.zero_le _) hbounds, ?_⟩
    -- The rounds that are left are one fewer, and this one has at most `n + 4` steps left.
    have hround : (n - finished.length) * (n + 6) =
        (n - (finished.length + 1)) * (n + 6) + (n + 6) := by
      rw [← Nat.succ_mul]
      exact congrArg (· * (n + 6)) (by omega)
    simp only [PortionState.distance, List.length_append, length_doneTasks, List.length_singleton]
    omega
  | @kill finished rest killCandidate j bounds hperm hlt hj hbounds =>
    rcases hj.lt_or_eq with hlast | rfl
    · obtain rfl := nextCaller_await_done rfl rfl hlast ht
      refine ⟨.kill hperm hlt hlast hbounds, ?_⟩
      simp only [PortionState.distance, List.length_append, length_doneTasks, List.length_singleton]
      omega
    · rw [nextCaller_await_last rfl rfl (by decide)] at ht
      cases ht
  | @add finished rest killCandidate j bounds hperm hlt hj hbounds =>
    rcases hj.lt_or_eq with hlast | rfl
    · obtain rfl := nextCaller_await_done rfl rfl hlast ht
      refine ⟨.add hperm hlt hlast hbounds, ?_⟩
      simp only [PortionState.distance, List.length_append, length_doneTasks, List.length_singleton]
      omega
    · rw [nextCaller_await_last rfl rfl (by decide)] at ht
      cases ht
  | done hperm hlt hj hbounds => exact PortionProgress.nextCaller_done hperm hlt hj hbounds rfl ht
  | returned => cases ht

/-- **What each step of a thread does**. -/
theorem PortionProgress.nextTask (h : PortionProgress descriptors n s)
    (ht : s.nextTask k = some t) :
    PortionProgress descriptors n t ∧ t.distance n < s.distance n := by
  cases h with
  | loop | choose | submit | done | returned =>
    rw [nextTask_doneTasks rfl] at ht
    cases ht
  | @kill finished rest killCandidate j bounds hperm hlt hj hbounds =>
    obtain rfl := eq_length_of_nextTask rfl ht
    rw [PortionState.nextTask] at ht
    simp only [getElem?_last, set_last] at ht
    obtain rfl := Option.some.inj ht
    refine ⟨.add hperm hlt hj hbounds, ?_⟩
    simp only [PortionState.distance, List.length_append, length_doneTasks, List.length_singleton]
    omega
  | @add finished rest killCandidate j bounds hperm hlt hj hbounds =>
    obtain rfl := eq_length_of_nextTask rfl ht
    rw [PortionState.nextTask] at ht
    simp only [getElem?_last, set_last, ← doneTasks_concat] at ht
    obtain rfl := Option.some.inj ht
    refine ⟨.done hperm hlt (by omega) hbounds, ?_⟩
    simp only [PortionState.distance, List.length_append, length_doneTasks, List.length_singleton]
    omega

theorem PortionProgress.bounds_pos (h : PortionProgress descriptors n s) :
    ∀ b ∈ s.bounds, 0 < b := by
  cases h with
  | loop _ _ hbounds | choose _ _ hbounds | submit _ _ hbounds | kill _ _ _ hbounds
  | add _ _ _ hbounds | done _ _ _ hbounds | returned _ _ hbounds => exact hbounds

end Progress

/-! ### The call -/

section Call

variable {e : ResurrectionExperiment} {descriptors : ApplicationDescriptors δ} {n : ℕ}
  {s t : PortionState δ} {a : PortionAction}

theorem PortionProgress.step (hn : n ≤ descriptors.elements.length)
    (hcount : e.getNumberOfKillCandidates.toInt = n) (h : PortionProgress descriptors.elements n s)
    (ht : (portionMachine e descriptors).step s a = some t) :
    PortionProgress descriptors.elements n t ∧ t.distance n < s.distance n := by
  cases a with
  | caller index =>
    rw [portionMachine, hcount] at ht
    exact h.nextCaller hn ht
  | task k => exact h.nextTask ht

/-- **The call can go on** until it has returned. -/
theorem PortionProgress.exists_step (hn : n ≤ descriptors.elements.length)
    (hcount : e.getNumberOfKillCandidates.toInt = n)
    (h : PortionProgress descriptors.elements n s) :
    PortionKilled e descriptors n s ∨ ∃ a t, (portionMachine e descriptors).step s a = some t := by
  cases h with
  | loop | submit => exact .inr ⟨.caller 0, _, rfl⟩
  | @choose finished rest bounds hperm hlt hbounds =>
    have hlength := hperm.length_eq
    rw [List.length_append] at hlength
    have hbound : ¬ (descriptors.elements.length : ℤ) - finished.length ≤ 0 := by omega
    have hindex : ¬ (descriptors.elements.length : ℤ) - finished.length ≤ (0 : ℕ) := hbound
    refine .inr ⟨.caller 0, ?_⟩
    simp only [portionMachine, PortionState.nextCaller, PortionState.takeCandidate, if_neg hbound,
      if_neg hindex, List.getElem?_eq_getElem (show 0 < rest.length by omega)]
    exact ⟨_, rfl⟩
  | @kill finished rest killCandidate j bounds hperm hlt hj hbounds =>
    refine .inr ⟨.task finished.length, ?_⟩
    simp only [portionMachine, PortionState.nextTask, getElem?_last]
    exact ⟨_, rfl⟩
  | @add finished rest killCandidate j bounds hperm hlt hj hbounds =>
    refine .inr ⟨.task finished.length, ?_⟩
    simp only [portionMachine, PortionState.nextTask, getElem?_last]
    exact ⟨_, rfl⟩
  | @done finished rest killCandidate j bounds hperm hlt hj hbounds =>
    refine .inr ⟨.caller 0, ?_⟩
    simp only [portionMachine, PortionState.nextCaller]
    by_cases hlast : j < (finished ++ [killCandidate]).length
    · obtain ⟨d, hd⟩ := exists_getElem?_doneTasks hlast
      rw [hd]
      exact ⟨_, rfl⟩
    · rw [List.getElem?_eq_none (by rw [length_doneTasks]; omega)]
      exact ⟨_, rfl⟩
  | @returned finished rest bounds hperm hfinished hbounds =>
    have hnodup : (finished ++ rest).Nodup := hperm.nodup_iff.mpr descriptors.nodup
    refine .inl ⟨rfl, rfl, hfinished, (List.nodup_append.mp hnodup).1, fun d hd => ?_, ?_⟩
    · exact hperm.subset (List.mem_append_left rest hd)
    · rintro (index | k)
      · rfl
      · exact nextTask_doneTasks rfl

/-- No overflow. -/
theorem toInt_getNumberOfKillCandidates (hsize : 0 ≤ e.networkSize.toInt)
    (hproduct : e.networkSize.toInt * e.killPortion.toInt < 2 ^ 31) :
    e.getNumberOfKillCandidates.toInt = e.networkSize.toInt * e.killPortion.toInt / 100 := by
  obtain ⟨hportion, -⟩ := e.validKillPortion
  have hnonneg : 0 ≤ e.networkSize.toInt * e.killPortion.toInt := Int.mul_nonneg hsize hportion
  have hmul : (e.networkSize * e.killPortion).toInt =
      e.networkSize.toInt * e.killPortion.toInt := by
    rw [Int32.toInt_mul]
    exact Int.bmod_eq_of_le (by omega) (by omega)
  rw [ResurrectionExperiment.getNumberOfKillCandidates, Int32.toInt_div, hmul,
    show (100 : Int32).toInt = 100 from rfl, Int.tdiv_eq_ediv_of_nonneg hnonneg]
  exact Int.bmod_eq_of_le (by omega) (by omega)

/-- **The right number of members is killed.** Whatever the generator returns and however the
threads are scheduled, it is asked with positive bounds only, and the call returns the list of what
was killed. -/
theorem killPortionOfNetwork_kills (e : ResurrectionExperiment)
    (descriptors : ApplicationDescriptors δ)
    (hsize : (descriptors.elements.length : ℤ) = e.networkSize.toInt)
    (hproduct : e.networkSize.toInt * e.killPortion.toInt < 2 ^ 31) :
    (∀ s, (portionMachine e descriptors).Reachable s → ∀ b ∈ s.bounds, 0 < b) ∧
      (portionMachine e descriptors).Inevitable
        (PortionKilled e descriptors (e.networkSize.toInt * e.killPortion.toInt / 100).toNat)
        (.initial descriptors) := by
  obtain ⟨hportion, hhundred⟩ := e.validKillPortion
  have hnonneg : 0 ≤ e.networkSize.toInt * e.killPortion.toInt :=
    Int.mul_nonneg (by omega) hportion
  have hle : e.networkSize.toInt * e.killPortion.toInt ≤ e.networkSize.toInt * 100 :=
    Int.mul_le_mul_of_nonneg_left hhundred (by omega)
  have hcount : e.getNumberOfKillCandidates.toInt =
      ((e.networkSize.toInt * e.killPortion.toInt / 100).toNat : ℕ) := by
    rw [toInt_getNumberOfKillCandidates (by omega) hproduct]
    omega
  generalize hn : (e.networkSize.toInt * e.killPortion.toInt / 100).toNat = n at hcount ⊢
  have hlength : n ≤ descriptors.elements.length := by omega
  have hinitial : PortionProgress descriptors.elements n (.initial descriptors) :=
    @PortionProgress.loop δ descriptors.elements n [] descriptors.elements [] (List.Perm.refl _)
      (Nat.zero_le _) (by simp)
  constructor
  · intro s hs
    have hprogress : PortionProgress descriptors.elements n s := by
      refine hs.invariant (fun s hs => ?_) fun s a t _ h _ hst => (h.step hlength hcount hst).1
      obtain rfl : s = .initial descriptors := hs
      exact hinitial
    exact hprogress.bounds_pos
  · refine Machine.inevitable_of_measure (PortionState.distance n) (fun s h hnot => ?_)
      (fun s a t h _ hst => h.step hlength hcount hst) hinitial
    exact (h.exists_step hlength hcount).resolve_left hnot

end Call

/-- Half of three descriptors. -/
def halfOfThree : ResurrectionExperiment := ⟨3, 50, by decide⟩

/-- A network of three. -/
def threeDescriptors : ApplicationDescriptors ℕ := ⟨[1, 2, 3], by decide⟩

theorem killPortionOfNetwork_kills_halfOfThree :
    (∀ s, (portionMachine halfOfThree threeDescriptors).Reachable s → ∀ b ∈ s.bounds, 0 < b) ∧
      (portionMachine halfOfThree threeDescriptors).Inevitable
        (PortionKilled halfOfThree threeDescriptors 1) (.initial threeDescriptors) :=
  killPortionOfNetwork_kills halfOfThree threeDescriptors (by decide) (by decide)

end Shabdiz
