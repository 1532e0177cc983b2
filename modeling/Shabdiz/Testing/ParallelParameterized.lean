import Mathlib.Data.Fintype.Card
import Mathlib.Data.Int.CardIntervalMod
import Mathlib.Data.List.FinRange
import Shabdiz.Concurrency.Interleaving
import Shabdiz.Text.Numeral

/-!
# Parameterized tests on several hosts

`ParallelParameterized` runs the test of each parameter by a task of an executor. If the test class
has a provider of hosts, a task starts a JVM on the next host and passes the name of the class and
the index of its parameter. The JVM constructs the same runner, whose tasks then pass over every
parameter but the one with that index, which is handed over in a system property.

Hosts are handed out in turn by a synchronized method. What can fail is part of the action: before
the JVM runs the test, or after, when its properties are not read. Two ways of failing are left out:
the name of a nested test class has a `$`, which a shell expands in the command for the JVM, and the
executor of a started JVM is not awaited for longer than its limit, whatever its test still has to
do.

## Main definitions

* `ParallelParameterized`, `ParallelParameterized.new` — the runner of one JVM
* `JUnitBootstrapCore.configure` — what a started JVM is told
* `ParameterState.runChild`, `parameterizedRun` — the tasks, interleaved
* `ParameterOutcome` — what became of one parameter

## Main results

* `runInStartedJvm_eq` — a started JVM runs the parameter it was started for, and no other
* `runsEachParameter` — each parameter runs at most once, and the hosts have equal shares
-/

namespace Shabdiz

/-! ### The code -/

/-- The runner that a JVM constructs for the test class. -/
structure ParallelParameterized (H : Type) where
  parameterIndex : Option Int32
  hosts : Option (List H)

/-- The constructor, where `testParamIndex` is the system property, and `hostProvider` the hosts of
the provider that the annotation names; `none` is a `NumberFormatException`. The provider is asked
only if no index is specified. -/
def ParallelParameterized.new {H : Type} (testParamIndex : Option (List Char))
    (hostProvider : Option (List H)) : Option (ParallelParameterized H) :=
  match testParamIndex with
  | some text => (Integer.parseInt text).map fun index => ⟨some index, none⟩
  | none => some ⟨none, hostProvider⟩

/-- The class and the property that a started JVM is configured with; `none` if there are too few
arguments, which is reported as a failure. -/
def JUnitBootstrapCore.configure : List (List Char) → Option (List Char × List Char)
  | testClassName :: parameterIndex :: _ => some (testClassName, parameterIndex)
  | _ => none

/-- The parameters of a test class, which are as many as a list in Java can have. -/
structure Parameters where
  count : ℕ
  count_lt : count < 2 ^ 31

/-- What happens to the parameters. -/
inductive ParameterEvent (H : Type) (n : ℕ) where
  /-- `nextHost` returned the host at this position. -/
  | assigned (index : Fin n) (position : ℕ)
  /-- The test ran in this JVM, or in the launcher itself if there is none. -/
  | ran (index : Fin n) (jvm : Option H)
  /-- The failure of the task was reported. -/
  | failed (index : Fin n)
deriving DecidableEq

/-- What the tasks share. -/
structure ParameterState (H : Type) (n : ℕ) where
  nextHostIndex : ℕ
  /-- No code reads it. -/
  events : List (ParameterEvent H n)
deriving DecidableEq

/-- The control points of a task. -/
inductive ParameterPoint (H : Type) where
  | entry
  /-- Calls `nextHost`. -/
  | nextHost
  | start (host : H)
  | returned
deriving DecidableEq

/-- What happens next to a task: if it starts a JVM, the order in which that one passes through the
parameters, or nothing if it runs no test; and whether an exception is thrown. -/
structure ParameterAnswer (n : ℕ) where
  order : Option (List (Fin n))
  throws : Bool

variable {H : Type} {n : ℕ}

namespace ParallelParameterized

/-- `runChild` in a JVM without hosts. -/
def runLocally (p : ParallelParameterized H) (jvm : Option H) (index : Fin n) :
    List (ParameterEvent H n) :=
  match p.parameterIndex with
  | some parameterIndex => if parameterIndex.toInt = index.val then [.ran index jvm] else []
  | none => [.ran index jvm]

/-- What a JVM does that was started with `arguments`. -/
def runInStartedJvm (host : H) (arguments : List (List Char)) (order : List (Fin n)) :
    List (ParameterEvent H n) :=
  match JUnitBootstrapCore.configure arguments with
  | none => []
  | some (_, testParamIndex) =>
    match ParallelParameterized.new (H := H) (some testParamIndex) none with
    | none => []
    | some p => order.flatMap (p.runLocally (some host))

end ParallelParameterized

namespace ParameterState

/-- Append events to those of the run. -/
def record (es : List (ParameterEvent H n)) (s : ParameterState H n) : ParameterState H n :=
  { s with events := s.events ++ es }

/-- The next host, and the state with the index moved on; `none` is an
`IndexOutOfBoundsException`. -/
def nextHost (hosts : List H) (index : Fin n) (s : ParameterState H n) :
    Option (H × ParameterState H n) :=
  hosts[s.nextHostIndex]?.map fun host =>
    (host, { nextHostIndex := if hosts.length - 1 < s.nextHostIndex + 1 then 0
                              else s.nextHostIndex + 1
             events := s.events ++ [.assigned index s.nextHostIndex] })

open ParallelParameterized

/-- One step of the task for the parameter at `index`. A JVM that runs the tests passes through all
parameters, in any order. -/
def runChild (p : ParallelParameterized H) (testClassName : List Char) (index : Fin n)
    (answer : ParameterAnswer n) (s : ParameterState H n) :
    ParameterPoint H → Option (ParameterState H n × ParameterPoint H)
  | .entry =>
    match p.parameterIndex, p.hosts with
    | none, some _ => some (s, .nextHost)
    | _, _ => some (s.record (p.runLocally none index), .returned)
  | .nextHost =>
    match s.nextHost (p.hosts.getD []) index with
    | none => some (s.record [.failed index], .returned)
    | some (host, s') => some (s', .start host)
  | .start host =>
    match answer.order with
    | none => if answer.throws then some (s.record [.failed index], .returned) else none
    | some order =>
      if order.Perm (List.finRange n) then
        let ran := runInStartedJvm host [testClassName, integerText index.val] order
        some (s.record (ran ++ if answer.throws then [.failed index] else []), .returned)
      else none
  | .returned => none

end ParameterState

/-- The tasks of a runner, one for each parameter. -/
def parameterizedRun (p : ParallelParameterized H) (testClassName : List Char)
    (parameters : Parameters) :
    Interleaving (Fin parameters.count) (ParameterState H parameters.count) Unit
      (ParameterPoint H) (ParameterAnswer parameters.count) where
  initial := ⟨0, []⟩
  start _ := .entry
  next i answer s point := s.runChild p testClassName i answer point
  op _ := ()
  op_start _ := rfl
  op_next _ := rfl

/-! ### What becomes of a parameter -/

/-- The parameter that the event is about. -/
def ParameterEvent.index : ParameterEvent H n → Fin n
  | .assigned index _ | .ran index _ | .failed index => index

@[simp] theorem index_assigned (index : Fin n) (position : ℕ) :
    (ParameterEvent.assigned (H := H) index position).index = index := rfl

@[simp] theorem index_ran (index : Fin n) (jvm : Option H) :
    (ParameterEvent.ran index jvm).index = index := rfl

@[simp] theorem index_failed (index : Fin n) :
    (ParameterEvent.failed (H := H) index).index = index := rfl

/-- The position of the host that was handed out, if one was. -/
def ParameterEvent.position? : ParameterEvent H n → Option ℕ
  | .assigned _ position => some position
  | _ => none

/-- The events about one parameter. -/
def ParameterState.about (s : ParameterState H n) (index : Fin n) : List (ParameterEvent H n) :=
  s.events.filter (·.index = index)

/-- The positions of the hosts that were handed out, in order. -/
def ParameterState.positions (s : ParameterState H n) : List ℕ :=
  s.events.filterMap ParameterEvent.position?

/-- A parameter got the host at a position, its test ran there at most once, and if it did not run
then a failure was reported. -/
inductive ParameterOutcome (hosts : List H) (index : Fin n) : List (ParameterEvent H n) → Prop where
  | ran (position : ℕ) (host : H) (h : hosts[position]? = some host) :
    ParameterOutcome hosts index [.assigned index position, .ran index (some host)]
  | ranAndFailed (position : ℕ) (host : H) (h : hosts[position]? = some host) :
    ParameterOutcome hosts index
      [.assigned index position, .ran index (some host), .failed index]
  | failed (position : ℕ) (host : H) (h : hosts[position]? = some host) :
    ParameterOutcome hosts index [.assigned index position, .failed index]

section Lists

variable {α β : Type*} [DecidableEq α] {l : List α} {a : α}

theorem flatMap_ite_eq_map_filter (f : α → β) (l : List α) :
    (l.flatMap fun b => if b = a then [f b] else []) = (l.filter (· = a)).map f := by
  induction l with
  | nil => rfl
  | cons b l ih =>
    rw [List.flatMap_cons, ih]
    by_cases hb : b = a <;> simp [hb]

end Lists

section Jvm

/-- **A started JVM runs its parameter**, and passes over all others. -/
theorem runInStartedJvm_eq (parameters : Parameters) (host : H) (testClassName : List Char)
    (index : Fin parameters.count) {order : List (Fin parameters.count)}
    (h : order.Perm (List.finRange parameters.count)) :
    ParallelParameterized.runInStartedJvm host [testClassName, integerText index.val] order =
      [.ran index (some host)] := by
  have hlt : (index.val : ℤ) < 2 ^ 31 := by
    exact_mod_cast index.isLt.trans parameters.count_lt
  have htoInt : (Int32.ofInt (index.val : ℤ)).toInt = index.val :=
    Int32.toInt_ofInt_of_le (by omega) hlt
  have hparse : Integer.parseInt (integerText index.val) = some (.ofInt (index.val : ℤ)) := by
    rw [Integer.parseInt_eq_some_iff, integer?_integerText, htoInt]
  have hnew : ParallelParameterized.new (H := H) (some (integerText index.val)) none =
      some ⟨some (.ofInt (index.val : ℤ)), none⟩ := by
    rw [ParallelParameterized.new, hparse]
    rfl
  have hrun (j : Fin parameters.count) :
      ParallelParameterized.runLocally ⟨some (.ofInt (index.val : ℤ)), none⟩ (some host) j =
        if j = index then [.ran j (some host)] else [] := by
    simp only [ParallelParameterized.runLocally, htoInt, Nat.cast_inj, Fin.val_inj, eq_comm]
  have hnodup : order.Nodup := h.nodup_iff.mpr (List.nodup_finRange _)
  have hmem : index ∈ order := h.mem_iff.mpr (List.mem_finRange index)
  simp only [ParallelParameterized.runInStartedJvm, JUnitBootstrapCore.configure, hnew]
  rw [funext hrun, flatMap_ite_eq_map_filter, List.filter_eq, List.count_eq_one_of_mem hnodup hmem,
    List.replicate_one]
  rfl

end Jvm

/-! ### The steps of a task -/

section Steps

variable {hosts : List H} {parameters : Parameters} {i j : Fin n} {s s' : ParameterState H n}
  {point point' : ParameterPoint H}

/-- The steps of the task for the parameter `i`, where there are hosts. -/
inductive ParameterStep (hosts : List H) (i : Fin n) :
    ParameterState H n → ParameterPoint H → ParameterState H n → ParameterPoint H → Prop where
  | entry (s : ParameterState H n) : ParameterStep hosts i s .entry s .nextHost
  | assigned (s : ParameterState H n) (host : H) (h : hosts[s.nextHostIndex]? = some host) :
    ParameterStep hosts i s .nextHost
      ⟨if hosts.length - 1 < s.nextHostIndex + 1 then 0 else s.nextHostIndex + 1,
        s.events ++ [.assigned i s.nextHostIndex]⟩ (.start host)
  | rejected (s : ParameterState H n) (h : hosts[s.nextHostIndex]? = none) :
    ParameterStep hosts i s .nextHost (s.record [.failed i]) .returned
  | ended (s : ParameterState H n) (host : H) (es : List (ParameterEvent H n))
    (h : es = [.ran i (some host)] ∨ es = [.ran i (some host), .failed i] ∨ es = [.failed i]) :
    ParameterStep hosts i s (.start host) (s.record es) .returned

theorem parameterStep_of_runChild {i : Fin parameters.count} {s s' : ParameterState H _}
    {testClassName : List Char} {answer : ParameterAnswer parameters.count}
    (h : s.runChild ⟨none, some hosts⟩ testClassName i answer point = some (s', point')) :
    ParameterStep hosts i s point s' point' := by
  cases point with
  | entry =>
    obtain ⟨rfl, rfl⟩ := Prod.mk.inj (Option.some.inj h)
    exact .entry s
  | nextHost =>
    simp only [ParameterState.runChild, ParameterState.nextHost, Option.getD_some] at h
    cases hhost : hosts[s.nextHostIndex]? with
    | none =>
      rw [hhost] at h
      obtain ⟨rfl, rfl⟩ := Prod.mk.inj (Option.some.inj h)
      exact .rejected s hhost
    | some host =>
      rw [hhost] at h
      obtain ⟨rfl, rfl⟩ := Prod.mk.inj (Option.some.inj h)
      exact .assigned s host hhost
  | start host =>
    simp only [ParameterState.runChild] at h
    split at h
    · split at h
      · obtain ⟨rfl, rfl⟩ := Prod.mk.inj (Option.some.inj h)
        exact .ended s host _ (.inr (.inr rfl))
      · cases h
    · split at h
      · next horder =>
        obtain ⟨rfl, rfl⟩ := Prod.mk.inj (Option.some.inj h)
        rw [runInStartedJvm_eq parameters host testClassName i horder]
        refine .ended s host _ ?_
        cases answer.throws with
        | true => exact .inr (.inl rfl)
        | false => exact .inl rfl
      · cases h
  | returned => cases h

/-- Hosts are handed out in turn: the positions are the residues of the number that were handed out
before, and the index is the next one. -/
structure InTurn (size : ℕ) (s : ParameterState H n) : Prop where
  positions : s.positions = (List.range s.positions.length).map (· % size)
  next : s.nextHostIndex = s.positions.length % size

/-- Where a task is, by what has happened to its parameter. -/
def ParameterView (hosts : List H) (i : Fin n) (s : ParameterState H n) : ParameterPoint H → Prop
  | .entry | .nextHost => s.about i = []
  | .start host =>
    ∃ position, hosts[position]? = some host ∧ s.about i = [.assigned i position]
  | .returned => ParameterOutcome hosts i (s.about i)

theorem about_record (es : List (ParameterEvent H n)) :
    (s.record es).about i = s.about i ++ es.filter (·.index = i) :=
  List.filter_append ..

theorem positions_record (es : List (ParameterEvent H n)) :
    (s.record es).positions = s.positions ++ es.filterMap ParameterEvent.position? :=
  List.filterMap_append ..

/-- A task adds events about its own parameter only. -/
theorem ParameterStep.frame (h : ParameterStep hosts i s point s' point') (hj : j ≠ i) :
    s'.about j = s.about j := by
  cases h with
  | entry => rfl
  | assigned host h =>
    exact (about_record (s := s) [.assigned i s.nextHostIndex]).trans
      (by simp [hj.symm])
  | rejected h => simp [about_record, hj.symm]
  | ended host es h =>
    rcases h with rfl | rfl | rfl <;> simp [about_record, hj.symm]

/-- The next index is the successor of a residue, taken round. -/
theorem next_residue {size k : ℕ} (hsize : 0 < size) :
    (if size - 1 < k % size + 1 then 0 else k % size + 1) = (k + 1) % size := by
  have hlt := Nat.mod_lt k hsize
  rw [Nat.add_mod k 1 size]
  split
  · next hlast =>
    have hk : k % size = size - 1 := by omega
    rcases Nat.lt_or_ge 1 size with hone | hone
    · rw [Nat.mod_eq_of_lt hone, hk, Nat.sub_add_cancel hsize, Nat.mod_self]
    · obtain rfl : size = 1 := by omega
      rw [Nat.mod_one]
  · next hlast =>
    rw [Nat.mod_eq_of_lt (by omega : 1 < size),
      Nat.mod_eq_of_lt (by omega : k % size + 1 < size)]

theorem InTurn.handOut {size : ℕ} (h : InTurn size s) (hsize : 0 < size)
    (hpositions : s'.positions = s.positions ++ [s.nextHostIndex])
    (hnext : s'.nextHostIndex =
      if size - 1 < s.nextHostIndex + 1 then 0 else s.nextHostIndex + 1) : InTurn size s' := by
  have hlength : s'.positions.length = s.positions.length + 1 := by
    rw [hpositions, List.length_append, List.length_singleton]
  refine ⟨?_, ?_⟩
  · rw [hlength, List.range_succ, List.map_append, ← h.positions, hpositions, h.next]
    rfl
  · rw [hnext, h.next, next_residue hsize, hlength]

theorem ParameterStep.own (h : ParameterStep hosts i s point s' point') (hhosts : hosts ≠ [])
    (hturn : InTurn hosts.length s) (hview : ParameterView hosts i s point) :
    InTurn hosts.length s' ∧ ParameterView hosts i s' point' := by
  have hsize : 0 < hosts.length := List.length_pos_iff.mpr hhosts
  cases h with
  | entry => exact ⟨hturn, hview⟩
  | assigned host hhost =>
    have habout := about_record (s := s) (i := i) [.assigned i s.nextHostIndex]
    refine ⟨hturn.handOut hsize (positions_record [.assigned i s.nextHostIndex]) rfl,
      s.nextHostIndex, hhost, ?_⟩
    refine habout.trans ?_
    rw [show s.about i = [] from hview]
    simp
  | rejected hhost =>
    have hlt : s.nextHostIndex < hosts.length := hturn.next ▸ Nat.mod_lt _ hsize
    rw [List.getElem?_eq_getElem hlt] at hhost
    cases hhost
  | ended host es h =>
    obtain ⟨position, hposition, habout⟩ := hview
    have hnone : es.filterMap ParameterEvent.position? = [] := by
      rcases h with rfl | rfl | rfl <;> rfl
    have hpositions : (s.record es).positions = s.positions := by
      rw [positions_record, hnone, List.append_nil]
    refine ⟨⟨?_, ?_⟩, ?_⟩
    · rw [hpositions]
      exact hturn.positions
    · rw [hpositions]
      exact hturn.next
    · show ParameterOutcome hosts i ((s.record es).about i)
      rw [about_record, habout]
      rcases h with rfl | rfl | rfl
      · have hran : ParameterOutcome hosts i _ := .ran position host hposition
        simpa using hran
      · have hran : ParameterOutcome hosts i _ := .ranAndFailed position host hposition
        simpa using hran
      · have hfailed : ParameterOutcome hosts i _ := .failed position host hposition
        simpa using hfailed

end Steps

section Main

variable {hosts : List H} {parameters : Parameters} {p : ParallelParameterized H}
  {testClassName : List Char}
  {c : Config (Fin parameters.count) (ParameterState H parameters.count) Unit (ParameterPoint H)}

/-- The view of a task, whether or not it has begun. -/
def ParameterTask (hosts : List H) (i : Fin n) (s : ParameterState H n) :
    Thread Unit (ParameterPoint H) → Prop
  | .ready _ => s.about i = []
  | .running point => ParameterView hosts i s point

theorem ParameterView.congr {i : Fin n} {s s' : ParameterState H n}
    {t : Thread Unit (ParameterPoint H)} (h : s'.about i = s.about i)
    (hview : ParameterTask hosts i s t) : ParameterTask hosts i s' t := by
  cases t with
  | ready _ => exact h.trans hview
  | running point =>
    cases point with
    | entry | nextHost => exact h.trans hview
    | start host =>
      obtain ⟨position, hposition, habout⟩ := hview
      exact ⟨position, hposition, h.trans habout⟩
    | returned =>
      show ParameterOutcome hosts i (s'.about i)
      rw [h]
      exact hview

theorem parameterizedRun_invariant (hhosts : hosts ≠ [])
    (h : (parameterizedRun ⟨none, some hosts⟩ testClassName parameters).machine.Reachable c) :
    Interleaving.Holds (InTurn hosts.length) (ParameterTask hosts) c := by
  refine Interleaving.owickiGries_next h ⟨⟨rfl, (Nat.zero_mod _).symm⟩, fun i _ => rfl⟩ ?_ ?_ ?_
  · intro c i answer o _ hc _ hi
    have hview := hc.2 i
    rw [hi] at hview
    exact hview
  · intro c i answer point s' point' _ hc _ hi hs
    have hview := hc.2 i
    rw [hi] at hview
    exact (parameterStep_of_runChild hs).own hhosts hc.1 hview
  · intro c i answer point s' point' j _ hc _ hi hs hj
    exact ParameterView.congr ((parameterStep_of_runChild hs).frame hj) (hc.2 j)

/-- The parameter that an event assigns a host to. -/
def ParameterEvent.assigned? : ParameterEvent H n → Option (Fin n)
  | .assigned index _ => some index
  | _ => none

theorem filterMap_assigned?_about (s : ParameterState H n) (i : Fin n) :
    (s.about i).filterMap ParameterEvent.assigned? =
      (s.events.filterMap ParameterEvent.assigned?).filter (· = i) := by
  rw [ParameterState.about]
  induction s.events with
  | nil => rfl
  | cons e es ih =>
    cases e with
    | assigned index position =>
      by_cases hi : index = i <;> simp [ParameterEvent.assigned?, hi, ih]
    | ran index jvm =>
      by_cases hi : index = i <;> simp [List.filterMap_cons, ParameterEvent.assigned?, hi, ih]
    | failed index =>
      by_cases hi : index = i <;> simp [List.filterMap_cons, ParameterEvent.assigned?, hi, ih]

theorem length_positions (s : ParameterState H n) :
    s.positions.length = (s.events.filterMap ParameterEvent.assigned?).length := by
  rw [ParameterState.positions]
  induction s.events with
  | nil => rfl
  | cons e es ih =>
    cases e <;>
      simp [List.filterMap_cons, ParameterEvent.position?, ParameterEvent.assigned?, ih]

/-- **As many hosts as parameters** have been handed out once something has become of each. -/
theorem length_positions_of_outcome {s : ParameterState H n}
    (h : ∀ i, ParameterOutcome hosts i (s.about i)) : s.positions.length = n := by
  have hperm : (s.events.filterMap ParameterEvent.assigned?).Perm (List.finRange n) := by
    rw [List.perm_iff_count]
    intro i
    have hone : ((s.about i).filterMap ParameterEvent.assigned?) = [i] := by
      have hi := h i
      generalize s.about i = es at hi
      cases hi <;> rfl
    rw [filterMap_assigned?_about, List.filter_eq] at hone
    have hcount := congrArg List.length hone
    rw [List.length_replicate, List.length_singleton] at hcount
    rw [hcount, List.count_eq_one_of_mem (List.nodup_finRange n) (List.mem_finRange i)]
  rw [length_positions, hperm.length_eq, List.length_finRange]

/-- How often a residue comes up. -/
theorem count_map_mod_range {size position : ℕ} (h : position < size) (k : ℕ) :
    ((List.range k).map (· % size)).count position =
      k / size + if position < k % size then 1 else 0 := by
  have hresidue := Nat.count_modEq_card k (Nat.zero_lt_of_lt h) position
  rw [Nat.mod_eq_of_lt h] at hresidue
  rw [← hresidue, Nat.count, List.count, List.countP_map]
  refine List.countP_congr fun x _ => ?_
  simp [Nat.ModEq, Nat.mod_eq_of_lt h]

/-- **Each parameter runs once, and the hosts share them equally.** Whatever JVMs fail, and in
whatever order the tasks and the parameters of each JVM come: when all tasks have returned, every
parameter was given one host, its test ran there once and in no other JVM, unless a failure was
reported; and every host was given as many parameters as any other, up to one. -/
theorem runsEachParameter (hp : ParallelParameterized.new none (some hosts) = some p)
    (hhosts : hosts ≠ []) (h : (parameterizedRun p testClassName parameters).machine.Reachable c)
    (hreturned : ∀ i, c.thread i = .running .returned) :
    (∀ i, ParameterOutcome hosts i (c.shared.about i)) ∧
      ∀ position < hosts.length, c.shared.positions.count position =
        parameters.count / hosts.length +
          if position < parameters.count % hosts.length then 1 else 0 := by
  obtain rfl := Option.some.inj hp
  obtain ⟨hturn, hview⟩ := parameterizedRun_invariant hhosts h
  have houtcome (i : Fin parameters.count) : ParameterOutcome hosts i (c.shared.about i) := by
    have hi := hview i
    rw [hreturned i] at hi
    exact hi
  refine ⟨houtcome, fun position hposition => ?_⟩
  rw [hturn.positions, count_map_mod_range hposition, length_positions_of_outcome houtcome]

/-- Three parameters on two hosts: the JVM of the second one dies before it runs the test, and the
third parameter takes the first host again. -/
theorem runsEachParameter_three :
    ∃ c : Config (Fin 3) (ParameterState String 3) Unit (ParameterPoint String),
      ParameterOutcome ["a", "b"] 2 (c.shared.about 2) ∧
        c.shared.positions.count 0 = 2 ∧ c.shared.positions.count 1 = 1 := by
  let go : ParameterAnswer 3 := ⟨some [2, 0, 1], false⟩
  let dies : ParameterAnswer 3 := ⟨none, true⟩
  obtain ⟨c, hrun, hc⟩ :=
    (parameterizedRun ⟨none, some ["a", "b"]⟩ [] ⟨3, by decide⟩).machine.exists_run_of_exec
      ⟨⟨0, []⟩, fun _ => .ready ()⟩
      [(0, go), (1, go), (2, go), (0, go), (1, go), (2, go), (0, go), (1, go), (2, go), (2, go),
        (1, dies), (0, go)]
      (fun c => decide (∀ i, c.thread i = .running .returned)) (by decide)
  obtain ⟨houtcome, hshares⟩ := runsEachParameter rfl (by decide)
    ⟨_, ⟨rfl, fun _ => ⟨(), rfl⟩⟩, hrun⟩ (of_decide_eq_true hc)
  exact ⟨c, houtcome 2, hshares 0 (by decide), hshares 1 (by decide)⟩

end Main

end Shabdiz
