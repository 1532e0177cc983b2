import Shabdiz.Util.DurationOrder
import Shabdiz.Util.DurationText

/-!
# A duration in its largest unit

`Duration.toStringAsLargestTimeUnit` goes through the units from the largest down to the unit of the
duration and writes the duration in the first one in which its length is not zero. The index is
decremented after it is used, so that it is one below the position of the unit that is looked at,
except in the first round; the first two rounds both look at the days. When the smallest unit has
been read the index is below the array, but it is not used again.

## Main definitions

* `Duration.toStringAsLargestTimeUnit` — the code
* `Duration.lengthIn` — the length in another unit, rounded down
* `Duration.IsLargestUnit` — the largest unit in which the length is not zero

## Main results

* `Duration.Descending.loop` — what the loop writes
* `Duration.toStringAsLargestTimeUnit_eq` — what is written
-/

namespace Shabdiz

namespace TimeUnit

theorem values_ordinal (unit : TimeUnit) : values[unit.ordinal]? = some unit := by
  cases unit <;> rfl

theorem ordinal_lt (unit : TimeUnit) : unit.ordinal < values.length :=
  (List.getElem?_eq_some_iff.mp unit.values_ordinal).1

theorem exists_ordinal_eq {n : ℕ} (h : n < values.length) :
    ∃ unit : TimeUnit, unit.ordinal = n := by
  have hmem : ∀ n < values.length, ∃ unit ∈ values, unit.ordinal = n := by decide
  obtain ⟨unit, -, hunit⟩ := hmem n h
  exact ⟨unit, hunit⟩

theorem ordinal_injective {u v : TimeUnit} (h : u.ordinal = v.ordinal) : u = v :=
  Option.some_inj.mp (by rw [← u.values_ordinal, h, v.values_ordinal])

/-- The units are enumerated from the smallest to the largest. -/
theorem ordinal_le_iff {u v : TimeUnit} : u.ordinal ≤ v.ordinal ↔ u.nanos ≤ v.nanos := by
  cases u <;> cases v <;> decide

end TimeUnit

namespace Duration

/-! ### The code -/

/-- The loop, with the unit that is looked at and the index. `none` stands for an
`ArrayIndexOutOfBoundsException`. -/
def largestUnitLoop (length : Int64) (unit newUnit : TimeUnit) (i : ℤ) : Option (List Char) :=
  if unit ≠ newUnit then
    let lengthInNewUnit := newUnit.convert length unit
    if lengthInNewUnit ≠ 0 then some (Duration.toString ⟨lengthInNewUnit, newUnit⟩)
    -- `units[i--]`
    else if 0 ≤ i then
      match TimeUnit.values[i.toNat]? with
      | some next => largestUnitLoop length unit next (i - 1)
      | none => none
    else none
  else some (Duration.toString ⟨length, unit⟩)
termination_by (i + 1).toNat

/-- The length in the largest unit that loses nothing of it; `none` is an index out of bounds. -/
def toStringAsLargestTimeUnit (length : Int64) (unit : TimeUnit) : Option (List Char) :=
  if 0 < length ∧ unit ≠ .days then
    let i := TimeUnit.values.length - 1
    match TimeUnit.values[i]? with
    | some newUnit => largestUnitLoop length unit newUnit i
    | none => none
  else some (Duration.toString ⟨length, unit⟩)

/-! ### The largest unit -/

/-- The length in another unit, rounded down. -/
def lengthIn (length : Int64) (unit newUnit : TimeUnit) : ℤ :=
  length.toInt * unit.nanos / newUnit.nanos

/-- The largest unit that is not smaller than `unit` and in which the length is not zero. -/
structure IsLargestUnit (length : Int64) (unit v : TimeUnit) : Prop where
  le : unit.nanos ≤ v.nanos
  nonzero : lengthIn length unit v ≠ 0
  largest : ∀ w : TimeUnit, v.nanos < w.nanos → lengthIn length unit w = 0

variable {length : Int64} {unit newUnit v w : TimeUnit} {i : ℤ}

theorem IsLargestUnit.unique (hv : IsLargestUnit length unit v)
    (hw : IsLargestUnit length unit w) : v = w := by
  apply TimeUnit.ordinal_injective
  have hvw := mt (hv.largest w) hw.nonzero
  have hwv := mt (hw.largest v) hv.nonzero
  rw [not_lt] at hvw hwv
  exact Nat.le_antisymm (TimeUnit.ordinal_le_iff.mpr hwv) (TimeUnit.ordinal_le_iff.mpr hvw)

/-- In a larger unit the length does not saturate. -/
theorem toInt_convert (hlength : 0 < length) (hle : unit.nanos ≤ newUnit.nanos) :
    (newUnit.convert length unit).toInt = lengthIn length unit newUnit := by
  have hpos : 0 < length.toInt := Int64.lt_iff_toInt_lt.mp hlength
  have hnanos := unit.nanos_pos
  have hnonneg : 0 ≤ length.toInt * unit.nanos := (mul_pos hpos hnanos).le
  have hdiv : 0 ≤ lengthIn length unit newUnit :=
    Int.ediv_nonneg hnonneg newUnit.nanos_pos.le
  have hbound : lengthIn length unit newUnit ≤ length.toInt :=
    Int.ediv_le_of_le_mul newUnit.nanos_pos (mul_le_mul_of_nonneg_left hle hpos.le)
  have hmax := length.toInt_lt
  rw [TimeUnit.convert, TimeUnit.toInt_ofIntClamp, Int.tdiv_eq_ediv_of_nonneg hnonneg, ← lengthIn]
  omega

theorem convert_eq_zero_iff (hlength : 0 < length) (hle : unit.nanos ≤ newUnit.nanos) :
    newUnit.convert length unit = 0 ↔ lengthIn length unit newUnit = 0 := by
  rw [← toInt_convert hlength hle]
  exact Int64.toInt_inj.symm

theorem lengthIn_self : lengthIn length unit unit = length.toInt :=
  Int.mul_ediv_cancel _ unit.nanos_pos.ne'

/-! ### The loop -/

/-- What holds before every round: the units above the one that is looked at have been found too
large, and the index is one below it, or at the last position. -/
structure Descending (length : Int64) (unit newUnit : TimeUnit) (i : ℤ) : Prop where
  le : unit.ordinal ≤ newUnit.ordinal
  index : i = newUnit.ordinal - 1 ∨ i = newUnit.ordinal ∧ newUnit = .days
  zero : ∀ w : TimeUnit, newUnit.nanos < w.nanos → lengthIn length unit w = 0

/-- There is a unit at the index, and it is looked at next. -/
theorem Descending.next (hlength : 0 < length) (h : Descending length unit newUnit i)
    (hne : unit ≠ newUnit) (hzero : ¬newUnit.convert length unit ≠ 0) :
    ∃ next : TimeUnit, i = next.ordinal ∧ Descending length unit next (i - 1) := by
  have hlt : unit.ordinal < newUnit.ordinal :=
    lt_of_le_of_ne h.le fun heq => hne (TimeUnit.ordinal_injective heq)
  rcases h.index with hi | ⟨hi, rfl⟩
  · obtain ⟨next, hnext⟩ := TimeUnit.exists_ordinal_eq
      (n := newUnit.ordinal - 1) (by have := newUnit.ordinal_lt; omega)
    refine ⟨next, by omega, by omega, .inl (by omega), fun w hw => ?_⟩
    -- What is larger than the next unit is this one, or larger still.
    have hle : newUnit.ordinal ≤ w.ordinal := by
      have := mt TimeUnit.ordinal_le_iff.mp (not_le.mpr hw)
      omega
    rcases hle.eq_or_lt with heq | hlt
    · rw [← TimeUnit.ordinal_injective heq]
      exact (convert_eq_zero_iff hlength (TimeUnit.ordinal_le_iff.mp h.le)).mp (not_not.mp hzero)
    · exact h.zero w (not_le.mp (mt TimeUnit.ordinal_le_iff.mpr (not_le.mpr hlt)))
  · exact ⟨.days, hi, h.le, .inl (by omega), h.zero⟩

/-- **What the loop writes.** -/
theorem Descending.loop (hlength : 0 < length) (h : Descending length unit newUnit i) :
    ∃ v, IsLargestUnit length unit v ∧ largestUnitLoop length unit newUnit i =
      some (integerText (lengthIn length unit v) ++ ' ' :: abbreviate v) := by
  fun_induction largestUnitLoop length unit newUnit i with
  | case1 newUnit i hne _ hnonzero =>
    have hle := TimeUnit.ordinal_le_iff.mp h.le
    have hin := toInt_convert hlength hle
    refine ⟨newUnit, ⟨hle, mt (convert_eq_zero_iff hlength hle).mpr hnonzero, h.zero⟩, ?_⟩
    rw [Duration.toString, hin]
  | case2 newUnit i hne _ hzero hi next hnext ih =>
    obtain ⟨next', rfl, hdescending⟩ := h.next hlength hne hzero
    obtain rfl : next' = next :=
      Option.some_inj.mp ((TimeUnit.values_ordinal next').symm.trans hnext)
    exact ih hdescending
  | case3 newUnit i hne _ hzero hi hnone =>
    obtain ⟨next, rfl, -⟩ := h.next hlength hne hzero
    exact absurd ((TimeUnit.values_ordinal next).symm.trans hnone) (Option.some_ne_none _)
  | case4 newUnit i hne _ hzero hi =>
    obtain ⟨next, rfl, -⟩ := h.next hlength hne hzero
    exact absurd (Int.natCast_nonneg _) hi
  | case5 newUnit i heq =>
    obtain rfl := not_not.mp heq
    refine ⟨unit, ⟨le_rfl, ?_, h.zero⟩, ?_⟩
    · rw [lengthIn_self]
      exact (Int64.lt_iff_toInt_lt.mp hlength).ne'
    · rw [Duration.toString, lengthIn_self]

theorem Descending.start : Descending length unit .days 6 where
  le := Nat.le_of_lt_succ unit.ordinal_lt
  index := .inr ⟨rfl, rfl⟩
  zero w hw :=
    absurd (TimeUnit.ordinal_le_iff.mp (Nat.le_of_lt_succ w.ordinal_lt)) (not_le.mpr hw)

theorem toStringAsLargestTimeUnit_unchanged (h : length ≤ 0 ∨ unit = .days) :
    toStringAsLargestTimeUnit length unit = some (Duration.toString ⟨length, unit⟩) := by
  rw [toStringAsLargestTimeUnit, if_neg]
  rintro ⟨hlength, hdays⟩
  rcases h with h | h
  · exact absurd hlength (Int64.not_lt.mpr h)
  · exact hdays h

/-- The days are their own largest unit, so that the loop would write the same. -/
theorem toStringAsLargestTimeUnit_eq_loop (hlength : 0 < length) :
    toStringAsLargestTimeUnit length unit = largestUnitLoop length unit .days 6 := by
  by_cases hdays : unit = .days
  · subst hdays
    rw [toStringAsLargestTimeUnit_unchanged (.inr rfl), largestUnitLoop.eq_def,
      if_neg (not_not.mpr rfl)]
  · rw [toStringAsLargestTimeUnit, if_pos ⟨hlength, hdays⟩]
    rfl

/-- **What is written.** A positive length is written in the largest unit in which it is not zero;
any other length, and a number of days, is written as it is. -/
theorem toStringAsLargestTimeUnit_eq (length : Int64) (unit : TimeUnit) :
    (0 < length → ∃ v, (∀ w, IsLargestUnit length unit w ↔ w = v) ∧
      toStringAsLargestTimeUnit length unit =
        some (integerText (lengthIn length unit v) ++ ' ' :: abbreviate v)) ∧
    (length ≤ 0 ∨ unit = .days →
      toStringAsLargestTimeUnit length unit = some (Duration.toString ⟨length, unit⟩)) := by
  constructor
  · intro hlength
    obtain ⟨v, hv, hloop⟩ := Descending.start.loop hlength
    refine ⟨v, fun w => ⟨fun hw => hw.unique hv, fun heq => heq ▸ hv⟩, ?_⟩
    rw [toStringAsLargestTimeUnit_eq_loop hlength]
    exact hloop
  · exact toStringAsLargestTimeUnit_unchanged

/-- Ninety minutes. -/
theorem toStringAsLargestTimeUnit_ninetyMinutes :
    ∃ v, (∀ w, IsLargestUnit 90 .minutes w ↔ w = v) ∧ toStringAsLargestTimeUnit 90 .minutes =
      some (integerText (lengthIn 90 .minutes v) ++ ' ' :: abbreviate v) :=
  (toStringAsLargestTimeUnit_eq 90 .minutes).1 (by decide)

end Duration

end Shabdiz
