import Mathlib.Data.Int.Order.Lemmas

/-!
# Durations in any unit

A `Duration` is a `long` and a `TimeUnit`. Its arithmetic converts the second operand to the unit
of the first, and `TimeUnit.convert` truncates towards zero where it makes a unit coarser and
saturates where it makes one finer. So a duration has two lengths: the number it holds, and the
exact number of nanoseconds that this number of units stands for, which need not fit in a `long`.

## Main definitions

* `TimeUnit`, `TimeUnit.nanos`, `TimeUnit.convert` — the units and the conversion between them
* `Duration`, `Duration.subtract`, `Duration.elapsed` — durations as the code computes with them
* `Duration.nanos` — the exact length of a duration

## Main results

* `TimeUnit.toInt_convert_nanoseconds` — nanoseconds are truncated and never saturate
* `TimeUnit.toInt_toNanos` — the exact number of nanoseconds, clamped to what a `long` holds
-/

namespace Shabdiz

/-- The units of time, the shortest first. -/
inductive TimeUnit where
  | nanoseconds
  | microseconds
  | milliseconds
  | seconds
  | minutes
  | hours
  | days
deriving DecidableEq

namespace TimeUnit

/-- The number of nanoseconds in one unit. -/
def nanos : TimeUnit → ℤ
  | nanoseconds => 1
  | microseconds => 1000
  | milliseconds => 1000 * 1000
  | seconds => 1000 * 1000 * 1000
  | minutes => 60 * (1000 * 1000 * 1000)
  | hours => 60 * 60 * (1000 * 1000 * 1000)
  | days => 24 * 60 * 60 * (1000 * 1000 * 1000)

/-- `length` of `source`, in this unit. -/
def convert (unit : TimeUnit) (length : Int64) (source : TimeUnit) : Int64 :=
  .ofIntClamp ((length.toInt * source.nanos).tdiv unit.nanos)

/-- The length in nanoseconds, saturated. -/
def toNanos (unit : TimeUnit) (length : Int64) : Int64 := nanoseconds.convert length unit

theorem nanos_pos (unit : TimeUnit) : 0 < unit.nanos := by
  cases unit <;> decide

/-- Saturation. -/
theorem toInt_ofIntClamp (i : ℤ) :
    (Int64.ofIntClamp i).toInt = max (-2 ^ 63) (min i (2 ^ 63 - 1)) := by
  have hmin : Int64.minValue.toInt = -2 ^ 63 := rfl
  have hmax : Int64.maxValue.toInt = 2 ^ 63 - 1 := rfl
  rw [Int64.ofIntClamp]
  split
  · split
    · rw [Int64.toInt_ofIntLE]
      omega
    · omega
  · omega

/-- Truncated division by a positive number keeps a number within the range of a `long`. -/
theorem tdiv_bounds {x u : ℤ} (hu : 0 < u) (hl : -2 ^ 63 ≤ x) (hr : x < 2 ^ 63) :
    -2 ^ 63 ≤ x.tdiv u ∧ x.tdiv u < 2 ^ 63 := by
  have habs := Int.natAbs_tdiv_le_natAbs x u
  rcases le_total 0 x with hx | hx
  · have hnonneg := Int.tdiv_nonneg hx hu.le
    omega
  · have hnonpos : 0 ≤ (-x).tdiv u := Int.tdiv_nonneg (neg_nonneg.mpr hx) hu.le
    rw [Int.neg_tdiv] at hnonpos
    omega

/-- Nanoseconds are truncated and never saturate. -/
theorem toInt_convert_nanoseconds (unit : TimeUnit) (length : Int64) :
    (unit.convert length nanoseconds).toInt = length.toInt.tdiv unit.nanos := by
  have hbounds := tdiv_bounds unit.nanos_pos length.le_toInt length.toInt_lt
  rw [convert, toInt_ofIntClamp, nanos, mul_one]
  omega

/-- A number of units is turned into nanoseconds exactly, unless it saturates. -/
theorem toInt_toNanos (unit : TimeUnit) (length : Int64) :
    (unit.toNanos length).toInt =
      max (-2 ^ 63) (min (length.toInt * unit.nanos) (2 ^ 63 - 1)) := by
  rw [toNanos, convert, toInt_ofIntClamp, nanos, Int.tdiv_one]

end TimeUnit

/-- A length of time in a unit. -/
structure Duration where
  length : Int64
  unit : TimeUnit
deriving DecidableEq

namespace Duration

/-- `Duration.ZERO`. -/
def zero : Duration := ⟨0, .nanoseconds⟩

/-- The duration from `start` to `stop`. -/
def elapsed (start stop : Int64) (unit : TimeUnit) : Duration := ⟨stop - start, unit⟩

/-- The length of the duration in the given unit. -/
def getLength (d : Duration) (unit : TimeUnit) : Int64 := unit.convert d.length d.unit

/-- The difference in the unit of the first, with wrap-around. -/
def subtract (d other : Duration) : Duration := ⟨d.length - other.getLength d.unit, d.unit⟩

/-- The exact length of a duration, in nanoseconds. -/
def nanos (d : Duration) : ℤ := d.length.toInt * d.unit.nanos

@[simp] theorem unit_subtract (d other : Duration) : (d.subtract other).unit = d.unit := rfl

end Duration

end Shabdiz
