import Mathlib.Data.Nat.Notation

/-!
# Bounded pipes

A pipe holds what was written to it and has not been read, up to its capacity, in order. Whoever
writes to a full pipe has to wait, and so has whoever reads from an empty one.

## Main definitions

* `Pipe` — a pipe, with its bound
* `Pipe.write`, `Pipe.read` — one element, if there is no need to wait

## Main results

* `Pipe.exists_read` — from a pipe that cannot be written to, something can be read
-/

namespace Shabdiz

/-- A pipe: its buffer never holds more than its capacity. -/
structure Pipe (α : Type) where
  capacity : ℕ
  positive : 0 < capacity
  buffer : List α
  bounded : buffer.length ≤ capacity

namespace Pipe

variable {α : Type} {p q : Pipe α} {a : α}

/-- A pipe that nothing has been written to. -/
def empty (capacity : ℕ) (h : 0 < capacity) : Pipe α := ⟨capacity, h, [], Nat.zero_le _⟩

/-- Write one element; `none` while the buffer is full, when the writer blocks. -/
def write (p : Pipe α) (a : α) : Option (Pipe α) :=
  if h : p.buffer.length < p.capacity then
    some { p with
      buffer := p.buffer ++ [a]
      bounded := by rw [List.length_append]; exact h }
  else none

/-- Read one element; `none` while the buffer is empty. -/
def read (p : Pipe α) : Option (α × Pipe α) :=
  match h : p.buffer with
  | [] => none
  | a :: rest =>
    some (a, { p with
      buffer := rest
      bounded := by
        have hbounded := p.bounded
        rw [h, List.length_cons] at hbounded
        exact Nat.le_of_succ_le hbounded })

theorem buffer_of_write (h : p.write a = some q) : q.buffer = p.buffer ++ [a] := by
  rw [write] at h
  split at h
  · rw [← Option.some.inj h]
  · cases h

theorem buffer_of_read (h : p.read = some (a, q)) : p.buffer = a :: q.buffer := by
  rw [read] at h
  split at h
  · cases h
  · next b rest hbuffer =>
    obtain ⟨rfl, rfl⟩ := Prod.mk.inj (Option.some.inj h)
    exact hbuffer

theorem buffer_of_read_eq_none (h : p.read = none) : p.buffer = [] := by
  rw [read] at h
  split at h
  · assumption
  · cases h

theorem exists_read_of_buffer (h : p.buffer ≠ []) : ∃ a q, p.read = some (a, q) := by
  rw [read]
  split
  · next hbuffer => exact absurd hbuffer h
  · exact ⟨_, _, rfl⟩

/-- **Somebody can go on**: what cannot be written to can be read from. -/
theorem exists_read (h : p.write a = none) : ∃ b q, p.read = some (b, q) := by
  refine exists_read_of_buffer fun hbuffer => ?_
  rw [write, dif_pos (by rw [hbuffer]; exact p.positive)] at h
  cases h

end Pipe

end Shabdiz
