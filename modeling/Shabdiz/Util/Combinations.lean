import Mathlib.Algebra.BigOperators.Group.List.Basic
import Mathlib.Data.List.Range

/-!
# Combinations of arguments

`generateArgumentCombinations` fills one array, the buffer, in place, and adds a copy of it to the
result whenever it is full. The arrays are in a heap here, and the result is a list of addresses, so
that it can be said what the rows share: nothing. Beside the address of a copy its contents are kept
when it is added, and beside the heap the addresses that were written to; the code has no such
records.

What carries the induction is how much of the buffer is current: the part before `index` is what
the enclosing loops have stored, and a call leaves it as it is, whatever it leaves behind it.

## Main definitions

* `Combinations`, `populateCombinations`, `generateArgumentCombinations` — the code
* `IsIndexTuple`, `pick` — the index tuples of the arguments, and the row of one
* `AreCombinations` — what the result is to be

## Main results

* `Snapshots.populateCombinations` — what a call adds, and what it leaves of the buffer
* `areCombinations_generateArgumentCombinations` — the result is the Cartesian product, in order,
  in arrays of its own
-/

namespace Shabdiz

/-! ### The code -/

/-- An array that was added to the result. -/
structure Combination (α : Type) where
  address : ℕ
  /-- What was in it when it was added. -/
  contents : List (Option α)

/-- The arrays, by their addresses, and the result. The elements of a new array are `null`. -/
structure Combinations (α : Type) where
  heap : List (List (Option α))
  combinations : List (Combination α)
  /-- The arrays in which an element was stored. -/
  written : List ℕ

namespace Combinations

variable {α : Type}

/-- The array at an address of the heap. -/
def get (s : Combinations α) (address : ℕ) : List (Option α) := s.heap.getD address []

/-- `array[index] = x`. -/
def store (s : Combinations α) (address index : ℕ) (x : α) : Combinations α :=
  { s with
    heap := s.heap.set address ((s.get address).set index (some x))
    written := s.written ++ [address] }

/-- `combinations.add(array.clone())`. -/
def addClone (s : Combinations α) (address : ℕ) : Combinations α :=
  { s with
    heap := s.heap ++ [s.get address]
    combinations := s.combinations ++ [⟨s.heap.length, s.get address⟩] }

/-- The loop over the rows of the arguments from `index` on. -/
def populateCombinations (combinationSoFar : ℕ) :
    List (List α) → ℕ → Combinations α → Combinations α
  | [], _, s => s.addClone combinationSoFar
  | row :: rows, index, s =>
    row.foldl (fun s x =>
      populateCombinations combinationSoFar rows (index + 1) (s.store combinationSoFar index x)) s

/-- The first array is the buffer. -/
def generateArgumentCombinations (args : List (List α)) : Combinations α :=
  populateCombinations 0 args 0 ⟨[List.replicate args.length none], [], []⟩

end Combinations

open Combinations

/-! ### What the result is to be -/

section Spec

variable {α : Type}

/-- A tuple with an index for each row. -/
def IsIndexTuple (args : List (List α)) (tuple : List ℕ) : Prop :=
  List.Forall₂ (fun row i => i < row.length) args tuple

/-- The elements at the indices of a tuple. -/
def pick (args : List (List α)) (tuple : List ℕ) : List (Option α) :=
  List.zipWith (fun row i => row[i]?) args tuple

/-- The rows are those of all index tuples, each once and in lexicographic order, and so their
number is the product of the lengths; they are arrays of their own, nothing was stored in them, and
they have what was in them when they were added. -/
structure AreCombinations (args : List (List α)) (s : Combinations α) : Prop where
  rows : ∃ tuples : List (List ℕ), tuples.Pairwise (· < ·) ∧
    (∀ tuple, tuple ∈ tuples ↔ IsIndexTuple args tuple) ∧
    s.combinations.map (fun c => s.get c.address) = tuples.map (pick args)
  size : s.combinations.length = (args.map List.length).prod
  distinct : (s.combinations.map Combination.address).Nodup
  untouched : ∀ c ∈ s.combinations, c.address ∉ s.written
  unchanged : ∀ c ∈ s.combinations, s.heap[c.address]? = some c.contents

/-- The index tuples, in lexicographic order. -/
def indexTuples : List (List α) → List (List ℕ)
  | [] => [[]]
  | row :: rows => (List.range row.length).flatMap fun i => (indexTuples rows).map (i :: ·)

theorem mem_indexTuples {args : List (List α)} {tuple : List ℕ} :
    tuple ∈ indexTuples args ↔ IsIndexTuple args tuple := by
  induction args generalizing tuple with
  | nil => simp [indexTuples, IsIndexTuple, List.forall₂_nil_left_iff]
  | cons row rows ih =>
    simp only [indexTuples, List.mem_flatMap, List.mem_range, List.mem_map, ih]
    constructor
    · rintro ⟨i, hi, t, ht, rfl⟩
      exact List.Forall₂.cons hi ht
    · intro h
      obtain ⟨i, t, hi, ht, rfl⟩ := List.forall₂_cons_left_iff.mp h
      exact ⟨i, hi, t, ht, rfl⟩

theorem pairwise_indexTuples (args : List (List α)) : (indexTuples args).Pairwise (· < ·) := by
  induction args with
  | nil => exact List.pairwise_singleton _ _
  | cons row rows ih =>
    rw [indexTuples, List.pairwise_flatMap]
    constructor
    · intro i _
      exact ih.map _ fun t u h => List.cons_lt_cons_self.mpr h
    · refine List.pairwise_lt_range.imp fun hij t ht u hu => ?_
      obtain ⟨t, -, rfl⟩ := List.mem_map.mp ht
      obtain ⟨u, -, rfl⟩ := List.mem_map.mp hu
      exact List.Lex.rel hij

theorem length_indexTuples (args : List (List α)) :
    (indexTuples args).length = (args.map List.length).prod := by
  induction args with
  | nil => rfl
  | cons row rows ih =>
    rw [indexTuples, List.length_flatMap, List.map_cons, List.prod_cons, ← ih]
    simp

/-- The rows, without their indices. -/
def product : List (List α) → List (List (Option α))
  | [] => [[]]
  | row :: rows => row.flatMap fun x => (product rows).map (some x :: ·)

theorem map_pick_indexTuples (args : List (List α)) :
    (indexTuples args).map (pick args) = product args := by
  induction args with
  | nil => rfl
  | cons row rows ih =>
    have hrow : (List.range row.length).map (fun i => row[i]?) = row.map some := by
      refine List.ext_getElem (by simp) fun i h h' => ?_
      simp
    calc (indexTuples (row :: rows)).map (pick (row :: rows))
        = ((List.range row.length).map (fun i => row[i]?)).flatMap fun x =>
            ((indexTuples rows).map (pick rows)).map (x :: ·) := by
          rw [indexTuples, List.map_flatMap, List.flatMap_map]
          simp only [List.map_map]
          rfl
      _ = product (row :: rows) := by rw [hrow, ih, List.flatMap_map, product]

end Spec

/-! ### The buffer and the copies -/

section Populate

variable {α : Type} {s : Combinations α} {b : List (Option α)} {rows : List (List α)} {index : ℕ}

/-- The buffer comes first, with `b` in it, and then the copies that were added; elements were
stored in the buffer only. -/
structure Snapshots (b : List (Option α)) (s : Combinations α) : Prop where
  heap : s.heap = b :: s.combinations.map Combination.contents
  addresses : s.combinations.map Combination.address = List.range' 1 s.combinations.length
  written : ∀ address ∈ s.written, address = 0

/-- Another buffer with the same current part. -/
structure SameUpTo (index : ℕ) (b b' : List (Option α)) : Prop where
  take : b'.take index = b.take index
  length : b'.length = b.length

theorem SameUpTo.trans {b' b'' : List (Option α)} (h : SameUpTo index b b')
    (h' : SameUpTo index b' b'') : SameUpTo index b b'' :=
  ⟨h'.take.trans h.take, h'.length.trans h.length⟩

theorem Snapshots.store (h : Snapshots b s) (x : α) :
    Snapshots (b.set index (some x)) (s.store 0 index x) := by
  refine ⟨?_, h.addresses, ?_⟩
  · rw [Combinations.store, Combinations.get, h.heap]
    rfl
  · exact List.forall_mem_append.mpr ⟨h.written, List.forall_mem_singleton.mpr rfl⟩

theorem Snapshots.addClone (h : Snapshots b s) : Snapshots b (s.addClone 0) := by
  refine ⟨?_, ?_, h.written⟩
  · rw [Combinations.addClone, Combinations.get, h.heap]
    simp
  · have hlength : s.heap.length = 1 + s.combinations.length := by
      rw [h.heap, List.length_cons, List.length_map, Nat.add_comm]
    rw [Combinations.addClone]
    simp [h.addresses, hlength, List.range'_concat]

/-- **What a call adds.** The copies that are added have the current part of the buffer, and behind
it the combinations of the remaining rows; the current part stays as it is. -/
theorem Snapshots.populateCombinations (h : Snapshots b s) (hb : b.length = index + rows.length) :
    ∃ b', SameUpTo index b b' ∧ Snapshots b' (populateCombinations 0 rows index s) ∧
      (populateCombinations 0 rows index s).combinations.map Combination.contents =
        s.combinations.map Combination.contents ++ (product rows).map (b.take index ++ ·) := by
  induction rows generalizing index b s with
  | nil =>
    refine ⟨b, ⟨rfl, rfl⟩, h.addClone, ?_⟩
    have hget : s.get 0 = b := by
      rw [Combinations.get, h.heap]
      rfl
    have htake : b.take index = b := List.take_of_length_le (by simp [hb])
    simp [Combinations.populateCombinations, Combinations.addClone, hget, htake, product]
  | cons row rows ih =>
    rw [Combinations.populateCombinations, product]
    -- The induction is on what the loop has still to see of the row.
    induction row generalizing b s with
    | nil => exact ⟨b, ⟨rfl, rfl⟩, h, by simp⟩
    | cons x row ihrow =>
      rw [List.length_cons] at hb
      have htake : (b.set index (some x)).take (index + 1) = b.take index ++ [some x] := by
        rw [List.take_add_one, List.take_set_of_le (Nat.le_refl index),
          List.getElem?_set_self (by omega)]
        rfl
      have hstore : Snapshots (b.set index (some x)) (s.store 0 index x) := h.store x
      have hlength : (b.set index (some x)).length = (index + 1) + rows.length := by
        rw [List.length_set]
        omega
      obtain ⟨b₁, hsame₁, h₁, hadded₁⟩ := ih hstore hlength
      have hsame : SameUpTo index b b₁ := by
        refine ⟨?_, by rw [hsame₁.length, List.length_set]⟩
        have := congrArg (List.take index) hsame₁.take
        rwa [List.take_take, List.take_take, Nat.min_eq_left (Nat.le_succ index),
          List.take_set_of_le (Nat.le_refl index)] at this
      obtain ⟨b₂, hsame₂, h₂, hadded₂⟩ :=
        ihrow h₁ (by rw [hsame.length, hb, List.length_cons])
      refine ⟨b₂, hsame.trans hsame₂, h₂, ?_⟩
      rw [List.foldl_cons, hadded₂, hadded₁, hsame.take, htake, List.flatMap_cons,
        List.map_append, List.append_assoc]
      congr 2
      simp

end Populate

/-! ### The Cartesian product -/

section Product

variable {α : Type} {s : Combinations α} {b : List (Option α)}

/-- Every copy still has what was in it when it was added. -/
theorem Snapshots.unchanged (h : Snapshots b s) :
    ∀ c ∈ s.combinations, s.heap[c.address]? = some c.contents := by
  intro c hc
  obtain ⟨i, hi, rfl⟩ := List.mem_iff_getElem.mp hc
  have haddress : (s.combinations[i]).address = i + 1 := by
    have hi' : i < (s.combinations.map Combination.address).length := by rwa [List.length_map]
    have hget : (s.combinations.map Combination.address)[i] = (s.combinations[i]).address := by
      rw [List.getElem_map]
    rw [← hget]
    simp only [h.addresses, List.getElem_range']
    omega
  rw [haddress, h.heap, List.getElem?_cons_succ, List.getElem?_map,
    List.getElem?_eq_getElem hi, Option.map_some]

/-- **Combinations are the Cartesian product**, in lexicographic order and each once, and no two of
them share an array. -/
theorem areCombinations_generateArgumentCombinations (args : List (List α)) :
    AreCombinations args (generateArgumentCombinations args) := by
  have hinit : Snapshots (List.replicate args.length none)
      (⟨[List.replicate args.length none], [], []⟩ : Combinations α) :=
    ⟨rfl, rfl, List.forall_mem_nil _⟩
  have hlength : (List.replicate args.length (none : Option α)).length = 0 + args.length := by
    rw [List.length_replicate, Nat.zero_add]
  obtain ⟨b, -, hfinal, hcontents⟩ := hinit.populateCombinations hlength
  change Snapshots b (generateArgumentCombinations args) at hfinal
  change (generateArgumentCombinations args).combinations.map Combination.contents = _ at hcontents
  rw [List.map_nil, List.nil_append, List.take_zero] at hcontents
  simp only [List.nil_append, List.map_id'] at hcontents
  refine ⟨⟨indexTuples args, pairwise_indexTuples args, fun _ => mem_indexTuples, ?_⟩, ?_, ?_,
    ?_, hfinal.unchanged⟩
  · rw [map_pick_indexTuples, ← hcontents]
    refine List.map_congr_left fun c hc => ?_
    rw [Combinations.get, List.getD_eq_getElem?_getD, hfinal.unchanged c hc, Option.getD_some]
  · rw [← length_indexTuples, ← List.length_map (f := pick args), map_pick_indexTuples,
      ← hcontents, List.length_map]
  · rw [hfinal.addresses]
    exact List.nodup_range'
  · intro c hc hwritten
    have hmem :
        c.address ∈ List.range' 1 (generateArgumentCombinations args).combinations.length := by
      rw [← hfinal.addresses]
      exact List.mem_map_of_mem hc
    rw [hfinal.written _ hwritten, List.mem_range'_1] at hmem
    omega

end Product

end Shabdiz
