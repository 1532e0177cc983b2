import Mathlib.Data.BitVec
import Mathlib.Data.List.Count
import Mathlib.Data.List.Find
import Shabdiz.Concurrency.Machine

/-!
# Attribute keys in several JVMs

A job can leave a value in the JVM it runs on, under an `AttributeKey`, for a later job on the same
worker to take up. Keys are told apart by an identifier that the constructor takes from a counter,
and travel between JVMs inside jobs and their results. The counter is a static field: every JVM has
its own, and all of them start from zero.

The machine has a launcher and any number of workers. It records which constructor call each key
object stems from and which values were put with which key object; neither is read by the code.

## Main definitions

* `AttributeKey`, `Attributes.get`, `Attributes.put` — keys, and the store of one JVM
* `JVMs`, `jvmMachine` — the JVMs, and what jobs do on them
* `JVMs.KeysAgree` — equal keys stem from one call, and a value is only found with its own key
* `CreatesAlone` — one JVM creates all the keys, and not too many of them

## Main results

* `JVMs.Accounted.keysAgree_iff_created` — when keys agree, for the numbers of keys created
* `keysAgree_iff` — when keys agree, for a run
-/

namespace Shabdiz

/-! ### Keys and their store -/

/-- `AttributeKey`: its `Long` identifier. -/
structure AttributeKey where
  id : BitVec 64
deriving DecidableEq

namespace AttributeKey

/-- The constructor: the identifier is the number in `NEXT_ID`, which is increased. -/
def new (nextId : BitVec 64) : AttributeKey × BitVec 64 := (⟨nextId⟩, nextId + 1)

/-- `equals`. An object that is the same has the same identifier too. -/
def equals (a b : AttributeKey) : Bool := a.id == b.id

@[simp] theorem equals_iff {a b : AttributeKey} : a.equals b = true ↔ a.id = b.id := beq_iff_eq

end AttributeKey

namespace Attributes

variable {V : Type}

/-- `STORE`, a `ConcurrentHashMap`: the value mapped to each key, up to `equals`. -/
abbrev Store (V : Type) := AttributeKey → Option V

/-- The value that the store has for a key. -/
def get (store : Store V) (key : AttributeKey) : Option V := store key

/-- `put`: the previous value, and the store with the new one. -/
def put (store : Store V) (key : AttributeKey) (value : V) : Option V × Store V :=
  (store key, fun other => if key.equals other then some value else store other)

end Attributes

/-! ### The JVMs -/

/-- The JVM of the launcher, and those of its workers. -/
inductive JVM where
  | launcher
  | worker (n : Nat)
deriving DecidableEq

/-- A key object in some JVM. It stems from the constructor call `origin.2` of JVM `origin.1`. -/
structure KeyObject where
  jvm : JVM
  key : AttributeKey
  origin : JVM × Nat
deriving DecidableEq

/-- The JVMs: the counter and the store of each, and the key objects that exist. -/
structure JVMs (V : Type) where
  nextId : JVM → BitVec 64
  store : JVM → Attributes.Store V
  keys : List KeyObject
  /-- How many keys each JVM has created. -/
  created : JVM → Nat
  /-- The key objects that values were put with, the latest first. -/
  puts : List (KeyObject × V)

/-- What happens to keys and values. -/
inductive JVMAction (V : Type) where
  /-- A job, or the launcher, creates a key. -/
  | newKey (j : JVM)
  /-- A key is serialised inside a job or a result, and a copy of it is read in another JVM. -/
  | ship (k : Nat) (j : JVM)
  /-- A value is put with a key, in the JVM where the key is. -/
  | put (k : Nat) (value : V)

namespace JVMs

variable {V : Type}

/-- Create a key in a JVM, with the next id of that JVM. -/
def newKey (j : JVM) (s : JVMs V) : JVMs V :=
  let (key, nextId) := AttributeKey.new (s.nextId j)
  { s with
    nextId := Function.update s.nextId j nextId
    keys := s.keys ++ [⟨j, key, (j, s.created j)⟩]
    created := Function.update s.created j (s.created j + 1) }

/-- Put a copy of a key into another JVM, without any constructor being called. -/
def ship (k : KeyObject) (j : JVM) (s : JVMs V) : JVMs V :=
  { s with keys := s.keys ++ [{ k with jvm := j }] }

/-- Put a value into the store of the JVM where the key is. -/
def put (k : KeyObject) (value : V) (s : JVMs V) : JVMs V :=
  { s with
    store := Function.update s.store k.jvm (Attributes.put (s.store k.jvm) k.key value).2
    puts := (k, value) :: s.puts }

/-- Take one action; `none` if there is no such key. -/
def step (s : JVMs V) : JVMAction V → Option (JVMs V)
  | .newKey j => some (s.newKey j)
  | .ship k j => (s.keys[k]?).map fun k => s.ship k j
  | .put k value => (s.keys[k]?).map fun k => s.put k value

/-- The value that was last put in JVM `j` with a key that stems from `origin`. -/
def lastPut (s : JVMs V) (j : JVM) (origin : JVM × Nat) : Option V :=
  (s.puts.find? fun p => p.1.jvm = j ∧ p.1.origin = origin).map Prod.snd

/-- Two keys are equal exactly if they stem from one constructor call, and what is found with a key
is what was last put with that key in the same JVM. -/
structure KeysAgree (s : JVMs V) : Prop where
  equals_iff : ∀ a ∈ s.keys, ∀ b ∈ s.keys, a.key.equals b.key = true ↔ a.origin = b.origin
  get_eq : ∀ k ∈ s.keys, Attributes.get (s.store k.jvm) k.key = s.lastPut k.jvm k.origin

/-- The JVMs when they have just been started. -/
def start : JVMs V := ⟨fun _ => 0, fun _ _ => none, [], fun _ => 0, []⟩

end JVMs

/-- The runs of several JVMs from their start on. -/
def jvmMachine (V : Type) : Machine (JVMs V) (JVMAction V) where
  init s := s = JVMs.start
  step := JVMs.step

/-! ### What is recorded -/

namespace JVMs

variable {V : Type} {s t : JVMs V} {a : JVMAction V}

/-- The invariant: identifiers are the numbers of the constructor calls, every call left a key, and
a store holds what was last put with an equal key. -/
structure Accounted (s : JVMs V) : Prop where
  nextId : ∀ j, s.nextId j = BitVec.ofNat 64 (s.created j)
  id : ∀ k ∈ s.keys, k.key.id = BitVec.ofNat 64 k.origin.2
  origin_lt : ∀ k ∈ s.keys, k.origin.2 < s.created k.origin.1
  exists_key : ∀ j n, n < s.created j → ∃ k ∈ s.keys, k.origin = (j, n)
  mem_keys : ∀ p ∈ s.puts, p.1 ∈ s.keys
  store : ∀ j key, s.store j key =
    (s.puts.find? fun p => p.1.jvm = j ∧ p.1.key.equals key = true).map Prod.snd

theorem accounted_start : (start : JVMs V).Accounted where
  nextId _ := rfl
  id := by simp [start]
  origin_lt := by simp [start]
  exists_key := by simp [start]
  mem_keys := by simp [start]
  store _ _ := rfl

theorem Accounted.newKey (h : s.Accounted) (j : JVM) : (s.newKey j).Accounted where
  nextId i := by
    by_cases hi : i = j
    · subst hi
      simp [JVMs.newKey, AttributeKey.new, h.nextId, BitVec.ofNat_add]
    · simpa [JVMs.newKey, hi] using h.nextId i
  id := by
    intro k hk
    obtain hk | hk := List.mem_append.mp hk
    · exact h.id k hk
    · obtain rfl := List.mem_singleton.mp hk
      exact h.nextId j
  origin_lt := by
    intro k hk
    have hle (i : JVM) : s.created i ≤ (s.newKey j).created i := by
      by_cases hi : i = j
      · subst hi
        simp [JVMs.newKey]
      · simp [JVMs.newKey, hi]
    obtain hk | hk := List.mem_append.mp hk
    · exact (h.origin_lt k hk).trans_le (hle _)
    · obtain rfl := List.mem_singleton.mp hk
      simp [JVMs.newKey]
  exists_key := by
    intro i n hn
    by_cases hi : i = j ∧ n = s.created j
    · obtain ⟨rfl, rfl⟩ := hi
      exact ⟨_, List.mem_append_right _ (List.mem_singleton_self _), rfl⟩
    · have hlt : n < s.created i := by
        by_cases hij : i = j
        · subst hij
          have hle : n ≤ s.created i := by simpa [JVMs.newKey, Nat.lt_succ_iff] using hn
          have hne : n ≠ s.created i := fun heq => hi ⟨rfl, heq⟩
          omega
        · simpa [JVMs.newKey, hij] using hn
      obtain ⟨k, hk, horigin⟩ := h.exists_key i n hlt
      exact ⟨k, List.mem_append_left _ hk, horigin⟩
  mem_keys p hp := List.mem_append_left _ (h.mem_keys p hp)
  store := h.store

theorem Accounted.ship (h : s.Accounted) {k : KeyObject} (hk : k ∈ s.keys) (j : JVM) :
    (s.ship k j).Accounted where
  nextId := h.nextId
  id := by
    intro k' hk'
    obtain hk' | hk' := List.mem_append.mp hk'
    · exact h.id k' hk'
    · obtain rfl := List.mem_singleton.mp hk'
      exact h.id k hk
  origin_lt := by
    intro k' hk'
    obtain hk' | hk' := List.mem_append.mp hk'
    · exact h.origin_lt k' hk'
    · obtain rfl := List.mem_singleton.mp hk'
      exact h.origin_lt k hk
  exists_key := by
    intro i n hn
    obtain ⟨k', hk', horigin⟩ := h.exists_key i n hn
    exact ⟨k', List.mem_append_left _ hk', horigin⟩
  mem_keys p hp := List.mem_append_left _ (h.mem_keys p hp)
  store := h.store

theorem Accounted.put (h : s.Accounted) {k : KeyObject} (hk : k ∈ s.keys) (value : V) :
    (s.put k value).Accounted where
  nextId := h.nextId
  id := h.id
  origin_lt := h.origin_lt
  exists_key := h.exists_key
  mem_keys := by
    intro p hp
    obtain rfl | hp := List.mem_cons.mp hp
    · exact hk
    · exact h.mem_keys p hp
  store := by
    intro j key
    by_cases hj : j = k.jvm
    · subst hj
      by_cases hkey : k.key.id = key.id
      · simp [JVMs.put, Attributes.put, hkey]
      · simp [JVMs.put, Attributes.put, hkey, h.store k.jvm key]
    · simp [JVMs.put, hj, Ne.symm hj, h.store j key]

theorem Accounted.step (h : s.Accounted) (hs : (jvmMachine V).step s a = some t) :
    t.Accounted := by
  cases a with
  | newKey j =>
    obtain rfl := Option.some.inj hs
    exact h.newKey j
  | ship k j =>
    obtain ⟨k, hk, rfl⟩ := Option.map_eq_some_iff.mp hs
    exact h.ship (List.mem_of_getElem? hk) j
  | put k value =>
    obtain ⟨k, hk, rfl⟩ := Option.map_eq_some_iff.mp hs
    exact h.put (List.mem_of_getElem? hk) value

theorem accounted_of_reachable (h : (jvmMachine V).Reachable s) : s.Accounted :=
  h.invariant (fun _ hs => hs ▸ accounted_start) fun _ _ _ _ hI _ hst => hI.step hst

/-! ### When keys agree -/

/-- What a store holds is what was last put with the key itself, when equal keys stem from one
call. -/
theorem Accounted.get_eq (h : s.Accounted)
    (hequals : ∀ a ∈ s.keys, ∀ b ∈ s.keys, a.key.equals b.key = true ↔ a.origin = b.origin)
    {k : KeyObject} (hk : k ∈ s.keys) :
    Attributes.get (s.store k.jvm) k.key = s.lastPut k.jvm k.origin := by
  have hfind : ∀ p ∈ s.puts, decide (p.1.jvm = k.jvm ∧ p.1.key.equals k.key = true) =
      decide (p.1.jvm = k.jvm ∧ p.1.origin = k.origin) := by
    intro p hp
    rw [decide_eq_decide, hequals p.1 (h.mem_keys p hp) k hk]
  rw [Attributes.get, h.store, lastPut, List.find?_congr hfind]

/-- **When keys agree**: when all of them are created by one JVM, before its counter is back at
zero. -/
theorem Accounted.keysAgree_iff_created (h : s.Accounted) :
    s.KeysAgree ↔ (∀ i j, 0 < s.created i → 0 < s.created j → i = j) ∧
      ∀ j, s.created j ≤ 2 ^ 64 := by
  constructor
  · intro hagree
    -- The keys of two calls whose numbers are the same up to `2 ^ 64` are equal.
    have heq {i j : JVM} {n m : Nat} (hn : n < s.created i) (hm : m < s.created j)
        (hnm : BitVec.ofNat 64 n = BitVec.ofNat 64 m) : (i, n) = (j, m) := by
      obtain ⟨a, ha, hao⟩ := h.exists_key i n hn
      obtain ⟨b, hb, hbo⟩ := h.exists_key j m hm
      have hid : a.key.id = b.key.id := by
        rw [h.id a ha, h.id b hb, hao, hbo]
        exact hnm
      rw [← hao, ← hbo]
      exact (hagree.equals_iff a ha b hb).mp (AttributeKey.equals_iff.mpr hid)
    refine ⟨fun i j hi hj => congrArg Prod.fst (heq hi hj rfl), fun j => ?_⟩
    by_contra hnot
    have hzero : (j, 0) = (j, 2 ^ 64) := heq (by omega) (by omega) rfl
    have : 0 = 2 ^ 64 := congrArg Prod.snd hzero
    omega
  · rintro ⟨hone, hle⟩
    have hequals : ∀ a ∈ s.keys, ∀ b ∈ s.keys,
        a.key.equals b.key = true ↔ a.origin = b.origin := by
      intro a ha b hb
      rw [AttributeKey.equals_iff, h.id a ha, h.id b hb]
      have halt := h.origin_lt a ha
      have hblt := h.origin_lt b hb
      have hjvm := hone a.origin.1 b.origin.1 (by omega) (by omega)
      constructor
      · intro hid
        have hmod := congrArg BitVec.toNat hid
        rw [BitVec.toNat_ofNat, BitVec.toNat_ofNat, Nat.mod_eq_of_lt (halt.trans_le (hle _)),
          Nat.mod_eq_of_lt (hblt.trans_le (hle _))] at hmod
        exact Prod.ext hjvm hmod
      · intro horigin
        rw [horigin]
    exact ⟨hequals, fun k hk => h.get_eq hequals hk⟩

end JVMs

/-! ### Runs -/

section Runs

variable {V : Type} {s t : JVMs V} {as : List (JVMAction V)}

/-- The JVM that creates a key. -/
def JVMAction.creator : JVMAction V → Option JVM
  | .newKey j => some j
  | _ => none

/-- In the run, the keys are all created by one JVM, and there are at most `2 ^ 64` of them. -/
def CreatesAlone (as : List (JVMAction V)) : Prop :=
  (∀ i ∈ as.filterMap JVMAction.creator, ∀ j ∈ as.filterMap JVMAction.creator, i = j) ∧
    (as.filterMap JVMAction.creator).length ≤ 2 ^ 64

instance : Decidable (CreatesAlone as) := inferInstanceAs (Decidable (_ ∧ _))

/-- What one step does to the number of keys that were created. -/
theorem JVMs.created_of_step {a : JVMAction V} (h : s.step a = some t) (j : JVM) :
    t.created j = s.created j + a.creator.toList.count j := by
  cases a with
  | newKey i =>
    obtain rfl := Option.some.inj h
    by_cases hij : j = i
    · subst hij
      simp [JVMs.newKey, JVMAction.creator]
    · simp [JVMs.newKey, JVMAction.creator, hij, Ne.symm hij]
  | ship k i =>
    obtain ⟨k, -, rfl⟩ := Option.map_eq_some_iff.mp h
    rfl
  | put k value =>
    obtain ⟨k, -, rfl⟩ := Option.map_eq_some_iff.mp h
    rfl

/-- Every key created in a run was counted. -/
theorem created_of_exec (h : (jvmMachine V).exec s as = some t) (j : JVM) :
    t.created j = s.created j + (as.filterMap JVMAction.creator).count j := by
  induction as generalizing s with
  | nil =>
    obtain rfl : s = t := by simpa [Machine.exec, Machine.execOf] using h
    rfl
  | cons a as ih =>
    obtain ⟨u, hu, ht⟩ : ∃ u, s.step a = some u ∧ (jvmMachine V).exec u as = some t := by
      simpa [Machine.exec, Machine.execOf, jvmMachine, Option.bind_eq_some_iff] using h
    have hcreator : (a :: as).filterMap JVMAction.creator =
        a.creator.toList ++ as.filterMap JVMAction.creator := by
      cases hc : a.creator with
      | none => exact List.filterMap_cons_none hc
      | some i => exact List.filterMap_cons_some hc
    rw [ih ht, JVMs.created_of_step hu, hcreator, List.count_append, Nat.add_assoc]

/-- **When keys agree**: in every run, exactly if one JVM creates all the keys of the run, and at
most `2 ^ 64` of them. -/
theorem keysAgree_iff (h : (jvmMachine V).exec JVMs.start as = some s) :
    s.KeysAgree ↔ CreatesAlone as := by
  have hcreated (j : JVM) : s.created j = (as.filterMap JVMAction.creator).count j := by
    rw [created_of_exec h j]
    exact Nat.zero_add _
  have haccounted : s.Accounted :=
    JVMs.accounted_of_reachable ⟨_, rfl, Machine.run_of_exec h⟩
  rw [haccounted.keysAgree_iff_created, CreatesAlone]
  simp only [hcreated, List.count_pos_iff]
  refine ⟨fun ⟨hone, hle⟩ => ⟨fun i hi j hj => hone i j hi hj, ?_⟩,
    fun ⟨hone, hle⟩ => ⟨fun i j hi hj => hone i hi j hj, fun j => List.count_le_length.trans hle⟩⟩
  -- All creations are by one JVM, so its count is the number of all of them.
  by_cases hne : as.filterMap JVMAction.creator = []
  · rw [hne]
    exact Nat.zero_le _
  · obtain ⟨i, hi⟩ := List.exists_mem_of_ne_nil _ hne
    rw [← List.count_eq_length.mpr fun j hj => hone i j hi hj]
    exact hle i

/-- A launcher that ships its two keys to a worker, where a job puts a value with the first. -/
def shipToWorker : List (JVMAction String) :=
  [.newKey .launcher, .newKey .launcher, .ship 0 (.worker 0), .ship 1 (.worker 0),
    .put 2 "/tmp/test_shabdiz_temp.tmp"]

theorem keysAgree_shipToWorker :
    ∃ s, (jvmMachine String).exec JVMs.start shipToWorker = some s ∧ s.KeysAgree := by
  have hrun : (jvmMachine String).exec JVMs.start shipToWorker = some _ := rfl
  exact ⟨_, hrun, (keysAgree_iff hrun).mpr (by decide)⟩

/-- The launcher's key and a key that a job of a worker creates are equal: with the launcher's key,
the worker finds what its own job has put. -/
def createOnWorker : List (JVMAction String) :=
  [.newKey .launcher, .newKey (.worker 0), .put 1 "/tmp/test_shabdiz_temp.tmp",
    .ship 0 (.worker 0)]

theorem not_keysAgree_createOnWorker :
    ¬ ∀ s, (jvmMachine String).Reachable s → s.KeysAgree := by
  intro h
  obtain ⟨s, hrun, hget⟩ := (jvmMachine String).exists_run_of_exec JVMs.start createOnWorker
    (fun s => s.keys.any fun k => Attributes.get (s.store k.jvm) k.key ≠ s.lastPut k.jvm k.origin)
    rfl
  obtain ⟨k, hk, hne⟩ := List.any_eq_true.mp hget
  exact of_decide_eq_true hne ((h s ⟨_, rfl, hrun⟩).get_eq k hk)

end Runs

end Shabdiz
