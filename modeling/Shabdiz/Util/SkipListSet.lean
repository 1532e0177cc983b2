import Mathlib.Data.List.Sort
import Mathlib.Order.Defs.LinearOrder

/-!
# Sets in the order of a key

`ConcurrentSkipListSet`: two elements with the same key are the same to the set, and its elements
are kept in the order of their keys.

## Main definitions

* `SkipListSet` — elements with increasing keys
* `SkipListSet.add`, `SkipListSet.remove`, `SkipListSet.first` — its operations

## Main results

* `SkipListSet.first_eq_some_iff` — the first element is the one with the least key
* `SkipListSet.elements_insert_of_lt` — an element with the greatest key comes last
-/

namespace Shabdiz

/-- Elements with increasing keys. -/
structure SkipListSet {α κ : Type*} [LinearOrder κ] (key : α → κ) where
  elements : List α
  sorted : elements.Pairwise fun x y => key x < key y

namespace SkipListSet

variable {α κ : Type*} [LinearOrder κ] {key : α → κ}

/-- The set without elements. -/
def empty (key : α → κ) : SkipListSet key := ⟨[], List.Pairwise.nil⟩

/-- An element with the key of `x`. -/
def Contains (s : SkipListSet key) (x : α) : Prop := key x ∈ s.elements.map key

instance (s : SkipListSet key) (x : α) : Decidable (s.Contains x) :=
  inferInstanceAs (Decidable (_ ∈ _))

theorem pairwise_orderedInsert {x : α} {l : List α} (hl : l.Pairwise fun x y => key x < key y)
    (hx : key x ∉ l.map key) :
    (l.orderedInsert (fun x y => key x ≤ key y) x).Pairwise fun x y => key x < key y := by
  induction l with
  | nil => exact List.pairwise_singleton _ _
  | cons y l ih =>
    rw [List.pairwise_cons] at hl
    rw [List.map_cons, List.mem_cons, not_or] at hx
    rw [List.orderedInsert_cons]
    split
    · next hle =>
      have hlt : key x < key y := lt_of_le_of_ne hle hx.1
      refine List.pairwise_cons.mpr ⟨?_, List.pairwise_cons.mpr hl⟩
      exact List.forall_mem_cons.mpr ⟨hlt, fun z hz => hlt.trans (hl.1 z hz)⟩
    · next hle =>
      refine List.pairwise_cons.mpr ⟨fun z hz => ?_, ih hl.2 hx.2⟩
      obtain rfl | hz := (List.mem_orderedInsert _).mp hz
      · exact not_le.mp hle
      · exact hl.1 z hz

/-- The set with an element whose key it does not have. -/
def insert (s : SkipListSet key) (x : α) (h : ¬ s.Contains x) : SkipListSet key where
  elements := s.elements.orderedInsert (fun x y => key x ≤ key y) x
  sorted := pairwise_orderedInsert s.sorted h

/-- Whether the set has changed, and the set. -/
def add (s : SkipListSet key) (x : α) : Bool × SkipListSet key :=
  if h : s.Contains x then (false, s) else (true, s.insert x h)

/-- Remove the element that is equal in the order, if there is one. -/
def remove (s : SkipListSet key) (x : α) : SkipListSet key where
  elements := s.elements.filter fun y => key y ≠ key x
  sorted := s.sorted.filter _

/-- The first element, or `none` where the method throws. -/
def first (s : SkipListSet key) : Option α := s.elements.head?

variable {s : SkipListSet key} {x y : α}

theorem mem_insert_iff (h : ¬ s.Contains x) :
    y ∈ (s.insert x h).elements ↔ y = x ∨ y ∈ s.elements :=
  List.mem_orderedInsert _

/-- **The first element** is the one with the least key. -/
theorem first_eq_some_iff :
    s.first = some x ↔ x ∈ s.elements ∧ ∀ y ∈ s.elements, key x ≤ key y := by
  obtain ⟨l, hl⟩ := s
  cases l with
  | nil => simp [first]
  | cons z l =>
    have hz := (List.pairwise_cons.mp hl).1
    constructor
    · intro h
      obtain rfl : z = x := Option.some.inj h
      exact ⟨List.mem_cons_self, List.forall_mem_cons.mpr ⟨le_rfl, fun y hy => (hz y hy).le⟩⟩
    · rintro ⟨hx, hleast⟩
      obtain rfl | hx := List.mem_cons.mp hx
      · rfl
      · exact absurd (hz x hx) (not_lt.mpr (hleast z List.mem_cons_self))

theorem orderedInsert_of_lt {l : List α} (hlt : ∀ y ∈ l, key y < key x) :
    l.orderedInsert (fun x y => key x ≤ key y) x = l ++ [x] := by
  induction l with
  | nil => rfl
  | cons y l ih =>
    rw [List.forall_mem_cons] at hlt
    rw [List.orderedInsert_cons, if_neg (not_le.mpr hlt.1), ih hlt.2, List.cons_append]

/-- An element with the greatest key comes last. -/
theorem elements_insert_of_lt (h : ¬ s.Contains x) (hlt : ∀ y ∈ s.elements, key y < key x) :
    (s.insert x h).elements = s.elements ++ [x] :=
  orderedInsert_of_lt hlt

end SkipListSet

end Shabdiz
