import Mathlib.Data.Finset.Max
import Mathlib.Data.List.Pairwise

/-!
# Iterating over a set that others change

An iterator of a concurrent set goes through the elements in their order, and chooses each element
before it is asked for it. Others may add elements and remove them meanwhile. What is promised of
such an iteration is that the elements it began with are returned once each, unless they are
removed; whether it meets an element that is added, or removed, is left open.

So the choice of the next element is an argument of each step, with a condition on it: the element
is in the set, it comes after the last one, and no element that stays is passed over.

## Main definitions

* `WeakIteration` — an iteration, with the elements that stay and those that were returned
* `WeakIteration.start`, `WeakIteration.advance` — its steps
* `WeakIteration.Visits` — what holds of an iteration, whatever others do

## Main results

* `WeakIteration.Visits.start`, `WeakIteration.Visits.advance`, `WeakIteration.Visits.remove` — it
  holds after each step
* `WeakIteration.Visits.exists_advance` — an iteration can go on until it has ended
* `WeakIteration.Visits.subset_visited` — an iteration that has ended has returned what stays
-/

namespace Shabdiz

/-- An iteration in the order of the elements. -/
@[ext]
structure WeakIteration (α : Type*) where
  /-- The elements that were there when it began, and have not been removed since. -/
  stays : Finset α
  /-- The elements that it has returned, in order. -/
  visited : List α
  /-- The element that it returns next. -/
  next : Option α
deriving DecidableEq

namespace WeakIteration

variable {α : Type*} [LinearOrder α]

/-- Whether `next` may be returned after `last`. -/
def MayFollow (members stays : Finset α) (last next : Option α) : Prop :=
  (∀ y ∈ next, y ∈ members ∧ ∀ x ∈ last, x < y) ∧
    ∀ z ∈ stays, (∀ x ∈ last, x < z) → ∃ y ∈ next, y ≤ z

instance (members stays : Finset α) (last next : Option α) :
    Decidable (MayFollow members stays last next) :=
  inferInstanceAs (Decidable ((∀ y ∈ next, y ∈ members ∧ ∀ x ∈ last, x < y) ∧
    ∀ z ∈ stays, (∀ x ∈ last, x < z) → ∃ y ∈ next, y ≤ z))

/-- There is always a choice: the first element that stays, after the last one. -/
theorem exists_mayFollow {members stays : Finset α} (h : stays ⊆ members) (last : Option α) :
    ∃ next, MayFollow members stays last next := by
  obtain hempty | hnonempty := (stays.filter fun z => ∀ x ∈ last, x < z).eq_empty_or_nonempty
  · refine ⟨none, nofun, fun z hz hlast => ?_⟩
    have hmem : z ∈ stays.filter fun z => ∀ x ∈ last, x < z :=
      Finset.mem_filter.mpr ⟨hz, hlast⟩
    rw [hempty] at hmem
    exact absurd hmem (Finset.notMem_empty z)
  · obtain ⟨hmin, hlast⟩ := Finset.mem_filter.mp (Finset.min'_mem _ hnonempty)
    refine ⟨some (Finset.min' _ hnonempty), fun y hy => ?_, fun z hz hz' => ⟨_, rfl, ?_⟩⟩
    · obtain rfl := Option.some.inj hy
      exact ⟨h hmin, hlast⟩
    · exact Finset.min'_le _ z (Finset.mem_filter.mpr ⟨hz, hz'⟩)

/-- Begin with the members of the set. -/
def start (members : Finset α) (next : Option α) : Option (WeakIteration α) :=
  if MayFollow members members none next then some ⟨members, [], next⟩ else none

/-- Return an element, and choose the one after it. -/
def advance (members : Finset α) (it : WeakIteration α) (next : Option α) :
    Option (α × WeakIteration α) :=
  it.next.bind fun x =>
    if MayFollow members it.stays (some x) next then
      some (x, { it with visited := it.visited ++ [x], next := next })
    else none

/-- Others have removed an element. -/
def remove (x : α) (it : WeakIteration α) : WeakIteration α :=
  { it with stays := it.stays.erase x }

/-- What holds of an iteration over a set with these members. -/
structure Visits (members : Finset α) (it : WeakIteration α) : Prop where
  increasing : it.visited.Pairwise (· < ·)
  /-- The next element comes after those that were returned. -/
  ahead : ∀ y ∈ it.next, ∀ x ∈ it.visited, x < y
  stays_subset : it.stays ⊆ members
  /-- An element that stays has been returned, or is still to come. -/
  covers : ∀ z ∈ it.stays, z ∈ it.visited ∨ ∃ y ∈ it.next, y ≤ z

variable {members : Finset α} {it it' : WeakIteration α} {next : Option α} {x : α}

namespace Visits

theorem start (h : WeakIteration.start members next = some it) : Visits members it := by
  obtain ⟨⟨-, hcovers⟩, h⟩ := Option.ite_none_right_eq_some.mp h
  obtain rfl := Option.some.inj h
  exact ⟨List.Pairwise.nil, fun _ _ _ hx => absurd hx List.not_mem_nil, Finset.Subset.refl _,
    fun z hz => .inr (hcovers z hz fun _ hx => absurd hx (by simp))⟩

theorem advance (hv : Visits members it) (h : it.advance members next = some (x, it')) :
    Visits members it' := by
  obtain ⟨y, hy, h⟩ := Option.bind_eq_some_iff.mp h
  obtain ⟨⟨hnext, hpassed⟩, h⟩ := Option.ite_none_right_eq_some.mp h
  obtain ⟨rfl, rfl⟩ := Prod.mk.inj (Option.some.inj h)
  have hbefore := hv.ahead y hy
  refine ⟨?_, ?_, hv.stays_subset, fun z hz => ?_⟩
  · refine List.pairwise_append.mpr ⟨hv.increasing, List.pairwise_singleton _ _, ?_⟩
    intro a ha b hb
    rw [List.mem_singleton.mp hb]
    exact hbefore a ha
  · intro b hb a ha
    have hlt : y < b := (hnext b hb).2 y rfl
    obtain ha | ha := List.mem_append.mp ha
    · exact (hbefore a ha).trans hlt
    · rwa [List.mem_singleton.mp ha]
  · -- What stays is at or after the element that was chosen; if after, it was not passed over.
    obtain hz' | ⟨b, hb, hle⟩ := hv.covers z hz
    · exact .inl (List.mem_append_left _ hz')
    · obtain rfl : y = b := Option.some.inj (hy.symm.trans hb)
      obtain rfl | hlt := hle.eq_or_lt
      · exact .inl (List.mem_append_right _ (List.mem_singleton_self _))
      · exact .inr (hpassed z hz fun a ha => by rwa [← Option.some.inj ha])

theorem remove (hv : Visits members it) (x : α) :
    Visits (members.erase x) (it.remove x) :=
  ⟨hv.increasing, hv.ahead, Finset.erase_subset_erase x hv.stays_subset,
    fun z hz => hv.covers z (Finset.mem_of_mem_erase hz)⟩

theorem insert (hv : Visits members it) (x : α) : Visits (insert x members) it :=
  { hv with stays_subset := hv.stays_subset.trans (Finset.subset_insert x members) }

/-- **An iteration goes on** until it has ended. -/
theorem exists_advance (hv : Visits members it) (hnext : it.next ≠ none) :
    ∃ next x, it.advance members next = some x := by
  obtain ⟨y, hy⟩ := Option.ne_none_iff_exists'.mp hnext
  obtain ⟨next, h⟩ := exists_mayFollow hv.stays_subset (some y)
  refine ⟨next, (y, { it with visited := it.visited ++ [y], next := next }), ?_⟩
  rw [WeakIteration.advance, hy, Option.bind_some, if_pos h]

theorem nodup (hv : Visits members it) : it.visited.Nodup :=
  hv.increasing.imp ne_of_lt

/-- **An iteration that has ended** has returned every element that stays. -/
theorem subset_visited (hv : Visits members it) (hend : it.next = none) :
    ∀ z ∈ it.stays, z ∈ it.visited := by
  intro z hz
  refine (hv.covers z hz).resolve_right ?_
  rintro ⟨y, hy, -⟩
  rw [hend] at hy
  cases hy

end Visits

end WeakIteration

end Shabdiz
