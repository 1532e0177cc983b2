import Mathlib.Algebra.Ring.Int.Defs
import Mathlib.Data.Int.Order.Basic
import Shabdiz.Concurrency.Machine
import Shabdiz.Util.SkipListSet

/-!
# The first descriptor of a network

`first()` is documented to return the first descriptor that was added to the network. The
descriptors are kept in the order of their ids, which they get when they are created. So what is
returned is the descriptor that was created first, until the ids overflow, and in whatever order
descriptors were added.

A state has, beside the set, the descriptors in the order of their additions. The code has no such
list: it says which descriptor the documentation promises.

## Main definitions

* `DescriptorSet`, `DescriptorSet.step` — creations, additions and removals
* `FirstIsEarliest` — what the documentation promises
* `AddsInOrder` — a step that adds no descriptor with a smaller id than one of those present

## Main results

* `perm_of_reachable` — the descriptors listed by their additions are those that are present
* `firstIsEarliest_of_reachableOf` — the promise is kept when descriptors are added in the order of
  their ids
* `exists_removals` — any other addition breaks it, at once or after removals
* `firstIsEarliest_iff` — both directions, for a list of operations
-/

namespace Shabdiz

/-! ### The code -/

namespace Descriptor

/-- The id of the `n`-th descriptor created. `NEXT_ID` is a `long`, and overflows. -/
def id (n : ℕ) : Int64 := .ofNat n

/-- `compareTo` compares ids. -/
def key (n : ℕ) : ℤ := (id n).toInt

end Descriptor

open Descriptor

/-- Descriptors are known by the number of those created before. -/
structure DescriptorSet where
  created : ℕ
  applicationDescriptors : SkipListSet key
  /-- The present descriptors, in the order of their latest effective additions. -/
  added : List ℕ

/-- Creations, by this network or by another one, and the calls of `add` and `remove`. -/
inductive DescriptorOp where
  | create
  | add (d : ℕ)
  | remove (d : ℕ)
deriving DecidableEq

namespace DescriptorSet

/-- A call of `add`, which is effective if the descriptor is not present. -/
def addDescriptor (s : DescriptorSet) (d : ℕ) : DescriptorSet :=
  match s.applicationDescriptors.add d with
  | (true, descriptors) =>
    { s with applicationDescriptors := descriptors, added := s.added ++ [d] }
  | (false, _) => s

/-- Take a descriptor out of the set; the history forgets that it was added. -/
def removeDescriptor (s : DescriptorSet) (d : ℕ) : DescriptorSet :=
  { s with
    applicationDescriptors := s.applicationDescriptors.remove d
    added := s.added.filter fun e => key e ≠ key d }

/-- The first descriptor of the set; `none` where the source throws. -/
def first (s : DescriptorSet) : Option ℕ := s.applicationDescriptors.first

/-- Only descriptors that have been created can be added or removed. -/
def step (s : DescriptorSet) : DescriptorOp → Option DescriptorSet
  | .create => some { s with created := s.created + 1 }
  | .add d => if d < s.created then some (s.addDescriptor d) else none
  | .remove d => if d < s.created then some (s.removeDescriptor d) else none

/-- A network without descriptors, when others may have been created. -/
def new (created : ℕ) : DescriptorSet := ⟨created, .empty key, []⟩

end DescriptorSet

open DescriptorSet

/-- The runs of a network that begins with any number of descriptors created. -/
def descriptorSetMachine : Machine DescriptorSet DescriptorOp where
  init s := ∃ n, s = .new n
  step := DescriptorSet.step

/-- What the documentation promises: `first` returns the descriptor that was added first, and
`null` if there is none. -/
def FirstIsEarliest (s : DescriptorSet) : Prop := s.first = s.added.head?

/-- An effective addition is of a descriptor with a greater id than all those present. -/
def AddsInOrder (s : DescriptorSet) : DescriptorOp → Prop
  | .add d => s.applicationDescriptors.Contains d ∨
      s.applicationDescriptors.elements.all (key · < key d) = true
  | _ => True

instance (s : DescriptorSet) : ∀ op : DescriptorOp, Decidable (AddsInOrder s op)
  | .create | .remove _ => inferInstanceAs (Decidable True)
  | .add _ => inferInstanceAs (Decidable (_ ∨ _))

/-! ### Descriptors in the order of their additions -/

section InOrder

variable {s t : DescriptorSet} {d : ℕ}

/-- The descriptors were added in the order of their ids. -/
structure InAddedOrder (s : DescriptorSet) : Prop where
  added_eq : s.added = s.applicationDescriptors.elements
  created : ∀ d ∈ s.applicationDescriptors.elements, d < s.created

theorem InAddedOrder.firstIsEarliest (h : InAddedOrder s) : FirstIsEarliest s :=
  congrArg List.head? h.added_eq.symm

theorem inAddedOrder_new (n : ℕ) : InAddedOrder (.new n) :=
  ⟨rfl, fun _ h => absurd h List.not_mem_nil⟩

theorem addDescriptor_of_contains (h : s.applicationDescriptors.Contains d) :
    s.addDescriptor d = s := by
  rw [addDescriptor, SkipListSet.add, dif_pos h]

theorem addDescriptor_of_not_contains (h : ¬ s.applicationDescriptors.Contains d) :
    s.addDescriptor d =
      { s with
        applicationDescriptors := s.applicationDescriptors.insert d h
        added := s.added ++ [d] } := by
  rw [addDescriptor, SkipListSet.add, dif_neg h]

/-- **The descriptors that are listed are those that are present**, in every run. -/
theorem perm_of_reachable (h : descriptorSetMachine.Reachable s) :
    s.added.Perm s.applicationDescriptors.elements := by
  refine h.invariant (I := fun s => s.added.Perm s.applicationDescriptors.elements) ?_ ?_
  · rintro _ ⟨n, rfl⟩
    exact List.Perm.refl _
  · intro s op t _ hperm _ hst
    cases op with
    | create =>
      obtain rfl := Option.some.inj hst
      exact hperm
    | remove d =>
      obtain ⟨-, hst⟩ := Option.ite_none_right_eq_some.mp hst
      obtain rfl := Option.some.inj hst
      exact hperm.filter _
    | add d =>
      obtain ⟨-, hst⟩ := Option.ite_none_right_eq_some.mp hst
      obtain rfl := Option.some.inj hst
      by_cases hmem : s.applicationDescriptors.Contains d
      · rwa [addDescriptor_of_contains hmem]
      · rw [addDescriptor_of_not_contains hmem]
        calc (s.added ++ [d]).Perm (d :: s.added) := List.perm_append_singleton d s.added
          List.Perm _ (d :: s.applicationDescriptors.elements) := hperm.cons d
          List.Perm _ _ := (List.perm_orderedInsert _ d _).symm

theorem InAddedOrder.step {op : DescriptorOp} (h : InAddedOrder s) (hop : AddsInOrder s op)
    (hst : s.step op = some t) : InAddedOrder t := by
  cases op with
  | create =>
    obtain rfl := Option.some.inj hst
    exact ⟨h.added_eq, fun d hd => Nat.lt_succ_of_lt (h.created d hd)⟩
  | remove d =>
    obtain ⟨-, hst⟩ := Option.ite_none_right_eq_some.mp hst
    obtain rfl := Option.some.inj hst
    refine ⟨congrArg _ h.added_eq, fun e he => h.created e ?_⟩
    exact List.mem_of_mem_filter he
  | add d =>
    obtain ⟨hd, hst⟩ := Option.ite_none_right_eq_some.mp hst
    obtain rfl := Option.some.inj hst
    by_cases hmem : s.applicationDescriptors.Contains d
    · rwa [addDescriptor_of_contains hmem]
    · have hlt : ∀ e ∈ s.applicationDescriptors.elements, key e < key d := by
        simpa using hop.resolve_left hmem
      rw [addDescriptor_of_not_contains hmem]
      refine ⟨?_, fun e he => ?_⟩
      · rw [SkipListSet.elements_insert_of_lt hmem hlt, h.added_eq]
      · obtain rfl | he := (SkipListSet.mem_insert_iff hmem).mp he
        · exact hd
        · exact h.created e he

theorem InAddedOrder.runOf (h : InAddedOrder s)
    (hr : descriptorSetMachine.RunOf AddsInOrder s t) : InAddedOrder t :=
  hr.invariant h fun _ _ _ _ hu hop hst => hu.step hop hst

/-- **The promise is kept when descriptors are added in the order of their ids**, whatever is
removed and added again. -/
theorem firstIsEarliest_of_reachableOf (h : descriptorSetMachine.ReachableOf AddsInOrder s) :
    FirstIsEarliest s := by
  obtain ⟨_, ⟨n, rfl⟩, hr⟩ := h
  exact ((inAddedOrder_new n).runOf hr).firstIsEarliest

end InOrder

/-! ### Removals -/

section Removals

variable {s t : DescriptorSet} {d : ℕ} {ds : List ℕ}

/-- Removals of created descriptors, one after the other. -/
theorem exists_removeAll (h : ∀ d ∈ ds, d < s.created) :
    ∃ t, descriptorSetMachine.exec s (ds.map .remove) = some t ∧
      t.added = s.added.filter (fun e => key e ∉ ds.map key) ∧
      t.applicationDescriptors.elements =
        s.applicationDescriptors.elements.filter fun e => key e ∉ ds.map key := by
  induction ds generalizing s with
  | nil => exact ⟨s, rfl, by simp, by simp⟩
  | cons d ds ih =>
    rw [List.forall_mem_cons] at h
    have hfilter (l : List ℕ) :
        (l.filter fun e => key e ≠ key d).filter (fun e => key e ∉ ds.map key) =
          l.filter fun e => key e ∉ (d :: ds).map key := by
      rw [List.filter_filter]
      exact List.filter_congr fun e _ => by simp [Bool.and_comm]
    obtain ⟨t, hexec, hadded, helements⟩ := ih (s := s.removeDescriptor d) h.2
    refine ⟨t, ?_, hadded.trans (hfilter _), helements.trans (hfilter _)⟩
    have hst : descriptorSetMachine.step s (.remove d) = some (s.removeDescriptor d) :=
      if_pos h.1
    rw [List.map_cons, Machine.exec, Machine.execOf, if_pos trivial, hst]
    exact hexec

/-- **Any other addition breaks the promise**: once the descriptors with smaller ids are removed,
the one that was added last comes first. -/
theorem exists_removals (h : InAddedOrder s) (hd : d < s.created)
    (hop : ¬ AddsInOrder s (.add d)) :
    ∃ (ds : List ℕ) (t : DescriptorSet),
      descriptorSetMachine.exec (s.addDescriptor d) (ds.map .remove) = some t ∧
        ¬ FirstIsEarliest t := by
  obtain ⟨hmem, hless⟩ := not_or.mp hop
  obtain ⟨e, he, hde⟩ : ∃ e ∈ s.applicationDescriptors.elements, key d ≤ key e := by
    simpa using hless
  -- The descriptors with smaller ids are removed; `d` and `e` stay.
  let ds := s.applicationDescriptors.elements.filter fun x => key x < key d
  have hds : ∀ x, key x ∈ ds.map key → key x < key d := by
    intro x hx
    obtain ⟨y, hy, heq⟩ := List.mem_map.mp hx
    rw [← heq]
    simpa using List.of_mem_filter hy
  have hcreated : ∀ x ∈ ds, x < (s.addDescriptor d).created := by
    intro x hx
    rw [addDescriptor_of_not_contains hmem]
    exact h.created x (List.mem_of_mem_filter hx)
  obtain ⟨t, hexec, hadded, helements⟩ := exists_removeAll hcreated
  refine ⟨ds, t, hexec, fun hfirst => ?_⟩
  rw [addDescriptor_of_not_contains hmem] at hadded helements
  have hfirstd : t.first = some d := by
    refine SkipListSet.first_eq_some_iff.mpr ?_
    rw [helements]
    refine ⟨List.mem_filter.mpr ⟨(SkipListSet.mem_insert_iff hmem).mpr (Or.inl rfl), ?_⟩, ?_⟩
    · exact decide_eq_true fun hd => lt_irrefl _ (hds d hd)
    · intro x hx
      obtain ⟨hx, hkept⟩ := List.mem_filter.mp hx
      by_contra hlt
      obtain rfl | hx := (SkipListSet.mem_insert_iff hmem).mp hx
      · exact hlt le_rfl
      · exact of_decide_eq_true hkept
          (List.mem_map_of_mem (List.mem_filter.mpr ⟨hx, by simpa using hlt⟩))
  have headd : ∃ x ∈ s.applicationDescriptors.elements, t.added.head? = some x := by
    have hkept : e ∈ s.applicationDescriptors.elements.filter fun x => key x ∉ ds.map key := by
      refine List.mem_filter.mpr ⟨he, decide_eq_true fun hx => ?_⟩
      exact not_lt.mpr hde (hds e hx)
    obtain ⟨x, rest, hfilter⟩ := List.exists_cons_of_ne_nil (List.ne_nil_of_mem hkept)
    refine ⟨x, List.mem_of_mem_filter (hfilter ▸ List.mem_cons_self), ?_⟩
    rw [hadded, List.filter_append, h.added_eq, hfilter]
    rfl
  obtain ⟨x, hx, hhead⟩ := headd
  rw [FirstIsEarliest, hfirstd, hhead] at hfirst
  obtain rfl := Option.some.inj hfirst
  exact hmem (List.mem_map_of_mem hx)

theorem runOf_removals (h : descriptorSetMachine.exec s (ds.map .remove) = some t) :
    descriptorSetMachine.RunOf AddsInOrder s t := by
  induction ds generalizing s with
  | nil =>
    obtain rfl := Option.some.inj h
    exact Machine.RunOf.refl
  | cons d ds ih =>
    rw [List.map_cons, Machine.exec, Machine.execOf, if_pos trivial] at h
    obtain ⟨u, hu, ht⟩ := Option.bind_eq_some_iff.mp h
    have hremove : AddsInOrder s (.remove d) := trivial
    exact Machine.RunOf.head hremove hu (ih ht)

end Removals

/-! ### Lists of operations -/

section Operations

variable {s : DescriptorSet} {op : DescriptorOp} {ops : List DescriptorOp}

/-- The promise is kept after each of the operations, and goes on to be kept whatever is removed
then. -/
def KeepsPromise (s : DescriptorSet) (ops : List DescriptorOp) : Prop :=
  ∀ (done : List DescriptorOp) (ds : List ℕ) (t : DescriptorSet), done <+: ops →
    descriptorSetMachine.exec s (done ++ ds.map .remove) = some t → FirstIsEarliest t

theorem InAddedOrder.keepsPromise (h : InAddedOrder s)
    (hops : (descriptorSetMachine.execOf AddsInOrder s ops).isSome = true) :
    KeepsPromise s ops := by
  rintro done ds t ⟨rest, rfl⟩ hexec
  rw [Machine.execOf_append] at hops
  obtain ⟨u, hu⟩ : ∃ u, descriptorSetMachine.execOf AddsInOrder s done = some u := by
    cases hdone : descriptorSetMachine.execOf AddsInOrder s done with
    | none => exact absurd hops (by simp [hdone])
    | some u => exact ⟨u, rfl⟩
  rw [Machine.exec, Machine.execOf_append] at hexec
  obtain ⟨v, hv, ht⟩ := Option.bind_eq_some_iff.mp hexec
  obtain rfl : u = v := Option.some.inj ((Machine.exec_of_execOf hu).symm.trans hv)
  exact ((h.runOf (Machine.runOf_of_execOf hu)).runOf (runOf_removals ht)).firstIsEarliest

/-- The operations after the first. -/
theorem KeepsPromise.tail {t : DescriptorSet} (h : KeepsPromise s (op :: ops))
    (hst : s.step op = some t) : KeepsPromise t ops := by
  intro done ds u hdone hexec
  refine h (op :: done) ds u ((List.prefix_cons_inj op).mpr hdone) ?_
  rw [List.cons_append, Machine.exec, Machine.execOf, if_pos trivial]
  exact Option.bind_eq_some_iff.mpr ⟨t, hst, hexec⟩

theorem InAddedOrder.addsInOrder_of_keepsPromise (h : InAddedOrder s) {t : DescriptorSet}
    (hst : s.step op = some t) (hkeeps : KeepsPromise s (op :: ops)) : AddsInOrder s op := by
  by_contra hno
  cases op with
  | create => exact hno trivial
  | remove d => exact hno trivial
  | add d =>
    obtain ⟨hd, heq⟩ := Option.ite_none_right_eq_some.mp hst
    obtain rfl := Option.some.inj heq
    obtain ⟨ds, u, hexec, hbroken⟩ := exists_removals h hd hno
    exact hbroken (hkeeps.tail hst [] ds u List.nil_prefix hexec)

theorem InAddedOrder.keepsPromise_iff (h : InAddedOrder s)
    (hops : (descriptorSetMachine.exec s ops).isSome = true) :
    KeepsPromise s ops ↔ (descriptorSetMachine.execOf AddsInOrder s ops).isSome = true := by
  refine ⟨fun hkeeps => ?_, h.keepsPromise⟩
  induction ops generalizing s with
  | nil => rfl
  | cons op ops ih =>
    rw [Machine.exec, Machine.execOf, if_pos trivial] at hops
    obtain ⟨t, hst⟩ : ∃ t, s.step op = some t := by
      cases hst : s.step op with
      | none => exact absurd hops (by simp [descriptorSetMachine, hst])
      | some t => exact ⟨t, rfl⟩
    have hop := h.addsInOrder_of_keepsPromise hst hkeeps
    have hstep : descriptorSetMachine.step s op = some t := hst
    rw [hstep] at hops
    rw [Machine.execOf, if_pos hop, hstep]
    exact ih (h.step hop hst) hops (hkeeps.tail hst)

end Operations

/-- **When `first` is the earliest**: after all operations of a list, and whatever is removed then,
exactly if each effective addition is of a descriptor with a greater id than those present. -/
theorem firstIsEarliest_iff (n : ℕ) (ops : List DescriptorOp)
    (hops : (descriptorSetMachine.exec (.new n) ops).isSome = true) :
    KeepsPromise (.new n) ops ↔
      (descriptorSetMachine.execOf AddsInOrder (.new n) ops).isSome = true :=
  (inAddedOrder_new n).keepsPromise_iff hops

/-- Descriptors added in order, and one of them added again. -/
theorem firstIsEarliest_readded :
    KeepsPromise (.new 0) [.create, .create, .add 0, .add 1, .remove 1, .add 1] :=
  (firstIsEarliest_iff 0 [.create, .create, .add 0, .add 1, .remove 1, .add 1] (by decide)).mpr
    (by decide)

/-- **The descriptor added second** comes first, if it was created before the other. -/
theorem not_firstIsEarliest_createdFirst :
    ∃ s, descriptorSetMachine.exec (.new 0) [.create, .create, .add 1, .add 0] = some s ∧
      s.added = [1, 0] ∧ s.first = some 0 ∧ ¬ FirstIsEarliest s := by
  refine ⟨_, rfl, rfl, ?_, ?_⟩
  · decide
  · unfold FirstIsEarliest
    decide

end Shabdiz
