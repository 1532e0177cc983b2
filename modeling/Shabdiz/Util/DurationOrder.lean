import Mathlib.Data.Set.Insert
import Shabdiz.Util.Duration

/-!
# Comparing and dividing durations

Two durations are compared in the unit of the first, to which the second is converted. Where this
unit is the coarser one, the conversion truncates, and durations of different lengths may compare
as equal in one order and not in the other. The remainder of a division is computed in the same way,
by a divisor that may have been truncated, to zero even.

## Main definitions

* `Duration.compareTo`, `Duration.equals`, `Duration.hashCode`, `Duration.max`, `Duration.mod` — the
  code
* `Duration.FitsIn`, `Duration.Unsaturated` — the conversion does not saturate
* `Duration.OrderedByLength` — a set of durations is ordered by their exact lengths
* `Duration.Agrees` — nothing that matters is truncated when one is compared with another
* `Duration.IsRemainder` — the remainder is one

## Main results

* `Duration.toInt_compareTo` — the comparison is one with a truncated length
* `Duration.orderedByLength_iff` — the sets that are ordered by length
* `Duration.orderedByLength_of_unit`, `Duration.hashCode_ne_of_unit_ne` — one unit, and several
* `Duration.isRemainder_iff` — the durations that have a remainder
* `Duration.isRemainder_of_dvd` — a divisor of whole units
-/

namespace Shabdiz

/-- The position of a unit in the enumeration. -/
def TimeUnit.ordinal : TimeUnit → ℕ
  | nanoseconds => 0
  | microseconds => 1
  | milliseconds => 2
  | seconds => 3
  | minutes => 4
  | hours => 5
  | days => 6

namespace Duration

/-! ### The code -/

/-- The comparison, in the unit of the first. -/
def compareTo (d other : Duration) : Int32 :=
  let otherInSameUnits := d.unit.convert other.length other.unit
  if otherInSameUnits < d.length then 1 else if d.length = otherInSameUnits then 0 else -1

/-- Whether the first is the longer. -/
def exceeds (d other : Duration) : Bool := 0 < d.compareTo other

/-- The hash code, from the length and the ordinal of the unit. -/
def hashCode (d : Duration) : Int32 := d.length.toInt32 * Int32.ofNat d.unit.ordinal

/-- Equality, which is that of the comparison. -/
def equals (d other : Duration) : Bool := d.compareTo other = 0

/-- The longer of two durations, in the unit of the first. -/
protected def max (first second : Duration) : Duration :=
  ⟨Max.max first.length (second.getLength first.unit), first.unit⟩

/-- `none` stands for an `ArithmeticException`. -/
def mod (d other : Duration) : Option Duration :=
  let divisor := other.getLength d.unit
  if divisor = 0 then none else some ⟨d.length % divisor, d.unit⟩

/-! ### Truncation -/

section Truncation

variable {x u n : ℤ}

theorem lt_mul_of_tdiv_lt (hu : 0 < u) (h : x.tdiv u < n) : x < n * u := by
  have hsplit := Int.tdiv_mul_add_tmod x u
  have hrest := Int.tmod_lt_of_pos x hu
  have hmul : (x.tdiv u + 1) * u ≤ n * u := Int.mul_le_mul_of_nonneg_right h hu.le
  rw [add_mul, one_mul] at hmul
  omega

theorem mul_lt_of_lt_tdiv (hu : 0 < u) (h : n < x.tdiv u) : n * u < x := by
  have hsplit := Int.tdiv_mul_add_tmod x u
  have hrest := Int.lt_tmod_of_pos x hu
  have hmul : (n + 1) * u ≤ x.tdiv u * u := Int.mul_le_mul_of_nonneg_right h hu.le
  rw [add_mul, one_mul] at hmul
  omega

/-- The multiple of `u` that a number is truncated to is not smaller exactly if the number is not
positive, or is that multiple. -/
theorem le_tdiv_mul_iff : x ≤ x.tdiv u * u ↔ x ≤ 0 ∨ u ∣ x := by
  have hsplit := Int.tdiv_mul_add_tmod x u
  rw [Int.dvd_iff_tmod_eq_zero]
  rcases le_total 0 x with hx | hx
  · have hrest := Int.tmod_nonneg u hx
    refine ⟨fun h => .inr (by omega), ?_⟩
    rintro (hzero | hzero)
    · obtain rfl : x = 0 := by omega
      simp
    · omega
  · have hrest : 0 ≤ (-x).tmod u := Int.tmod_nonneg u (by omega)
    rw [Int.neg_tmod] at hrest
    exact iff_of_true (by omega) (.inl hx)

end Truncation

/-! ### Conversion -/

variable {a b d other : Duration} {unit : TimeUnit} {S : Set Duration}

/-- The duration can be converted to the unit without saturation. -/
def FitsIn (d : Duration) (unit : TimeUnit) : Prop :=
  -2 ^ 63 ≤ d.nanos.tdiv unit.nanos ∧ d.nanos.tdiv unit.nanos < 2 ^ 63

instance : Decidable (d.FitsIn unit) := inferInstanceAs (Decidable (_ ∧ _))

theorem toInt_getLength (h : d.FitsIn unit) :
    (d.getLength unit).toInt = d.nanos.tdiv unit.nanos := by
  have := h.1
  have := h.2
  rw [getLength, TimeUnit.convert, TimeUnit.toInt_ofIntClamp, ← nanos]
  omega

/-! ### The order -/

/-- The length of the second duration is compared as it is truncated to the unit of the first. -/
theorem toInt_compareTo (h : other.FitsIn d.unit) :
    (d.compareTo other).toInt = (d.length.toInt - other.nanos.tdiv d.unit.nanos).sign := by
  rw [compareTo, ← getLength, ← toInt_getLength h]
  simp only [Int64.lt_iff_toInt_lt, ← Int64.toInt_inj]
  split
  · rw [Int.sign_eq_one_of_pos (by omega)]
    rfl
  · split
    · rw [Int.sign_eq_zero_iff_zero.mpr (by omega)]
      rfl
    · rw [Int.sign_eq_neg_one_of_neg (by omega)]
      rfl

/-- The sign of a comparison is that of the difference in length, unless a difference is truncated
away. -/
theorem toInt_compareTo_eq_iff (h : b.FitsIn a.unit) :
    (a.compareTo b).toInt.sign = (a.nanos - b.nanos).sign ↔
      (b.nanos.tdiv a.unit.nanos = a.length.toInt → a.nanos = b.nanos) := by
  have hu := a.unit.nanos_pos
  rw [toInt_compareTo h, Int.sign_sign]
  rcases lt_trichotomy (b.nanos.tdiv a.unit.nanos) a.length.toInt with hlt | heq | hlt
  · have hlonger : b.nanos < a.nanos := lt_mul_of_tdiv_lt hu hlt
    rw [Int.sign_eq_one_of_pos (by omega), Int.sign_eq_one_of_pos (by omega)]
    exact iff_of_true rfl fun heq => absurd heq (by omega)
  · rw [Int.sign_eq_zero_iff_zero.mpr (by omega), forall_prop_of_true heq, eq_comm,
      Int.sign_eq_zero_iff_zero, Int.sub_eq_zero]
  · have hshorter : a.nanos < b.nanos := mul_lt_of_lt_tdiv hu hlt
    rw [Int.sign_eq_neg_one_of_neg (by omega), Int.sign_eq_neg_one_of_neg (by omega)]
    exact iff_of_true rfl fun heq => absurd heq (by omega)

/-- The longer of two durations is as long as both, unless the second is longer and is truncated. -/
theorem le_max_iff (h : b.FitsIn a.unit) :
    (a.nanos ≤ (a.max b).nanos ∧ b.nanos ≤ (a.max b).nanos) ↔
      b.nanos ≤ a.nanos ∨ b.nanos ≤ 0 ∨ a.unit.nanos ∣ b.nanos := by
  have hu := a.unit.nanos_pos
  have hmax : (a.max b).nanos =
      Max.max a.length.toInt (b.nanos.tdiv a.unit.nanos) * a.unit.nanos := by
    rw [Duration.max, nanos, ← toInt_getLength h]
    congr 1
    show (if a.length ≤ b.getLength a.unit then b.getLength a.unit else a.length).toInt = _
    split
    · next hle => rw [max_eq_right (Int64.le_iff_toInt_le.mp hle)]
    · next hle =>
      rw [Int64.le_iff_toInt_le, not_le] at hle
      rw [max_eq_left hle.le]
  rw [← le_tdiv_mul_iff, hmax]
  rcases le_total a.length.toInt (b.nanos.tdiv a.unit.nanos) with hle | hle
  · have hmul : a.nanos ≤ b.nanos.tdiv a.unit.nanos * a.unit.nanos :=
      Int.mul_le_mul_of_nonneg_right hle hu.le
    rw [max_eq_right hle]
    omega
  · have hmul : b.nanos.tdiv a.unit.nanos * a.unit.nanos ≤ a.nanos :=
      Int.mul_le_mul_of_nonneg_right hle hu.le
    rw [max_eq_left hle, ← nanos]
    omega

/-- Hash codes are computed in `int`s, from the low bits of the lengths. -/
theorem hashCode_eq_iff :
    a.hashCode = b.hashCode ↔
      2 ^ 32 ∣ a.length.toInt * a.unit.ordinal - b.length.toInt * b.unit.ordinal := by
  have htoInt (d : Duration) :
      d.hashCode.toInt = (d.length.toInt * d.unit.ordinal).bmod (2 ^ 32) := by
    have hordinal : (Int32.ofNat d.unit.ordinal).toInt = d.unit.ordinal := by
      cases d.unit <;> rfl
    rw [hashCode, Int32.toInt_mul, Int64.toInt_toInt32, hordinal, Int.bmod_mul_bmod]
  rw [← Int32.toInt_inj, htoInt, htoInt, Int.bmod_eq_bmod_iff_bmod_sub_eq_zero,
    ← Int.dvd_iff_bmod_eq_zero]
  rfl

/-- None of the durations saturates in the unit of another. -/
def Unsaturated (S : Set Duration) : Prop := ∀ a ∈ S, ∀ b ∈ S, b.FitsIn a.unit

/-- Durations are compared by their exact lengths. Hence the order and the equality have the
properties of an order and an equality, and what is computed from them agrees with them. -/
structure OrderedByLength (S : Set Duration) : Prop where
  sign_compareTo : ∀ a ∈ S, ∀ b ∈ S, (a.compareTo b).toInt.sign = (a.nanos - b.nanos).sign
  antisymm : ∀ a ∈ S, ∀ b ∈ S, (a.compareTo b).toInt.sign = -(b.compareTo a).toInt.sign
  trans : ∀ a ∈ S, ∀ b ∈ S, ∀ c ∈ S, a.compareTo b ≤ 0 → b.compareTo c ≤ 0 → a.compareTo c ≤ 0
  strict_trans : ∀ a ∈ S, ∀ b ∈ S, ∀ c ∈ S,
    0 < a.compareTo b → 0 < b.compareTo c → 0 < a.compareTo c
  equals_refl : ∀ a ∈ S, a.equals a = true
  equals_symm : ∀ a ∈ S, ∀ b ∈ S, a.equals b = true → b.equals a = true
  equals_trans : ∀ a ∈ S, ∀ b ∈ S, ∀ c ∈ S,
    a.equals b = true → b.equals c = true → a.equals c = true
  hashCode : ∀ a ∈ S, ∀ b ∈ S, a.equals b = true → a.hashCode = b.hashCode
  exceeds : ∀ a ∈ S, ∀ b ∈ S, (a.exceeds b = true ↔ b.nanos < a.nanos)
  max : ∀ a ∈ S, ∀ b ∈ S, a.nanos ≤ (a.max b).nanos ∧ b.nanos ≤ (a.max b).nanos

/-- Nothing that matters is truncated when `b` is converted to the unit of `a`, and the two have
the same hash code if they have the same length. -/
structure Agrees (a b : Duration) : Prop where
  of_tdiv_eq : b.nanos.tdiv a.unit.nanos = a.length.toInt → a.nanos = b.nanos
  longer : b.nanos ≤ a.nanos ∨ b.nanos ≤ 0 ∨ a.unit.nanos ∣ b.nanos
  hash : a.nanos = b.nanos →
    2 ^ 32 ∣ a.length.toInt * a.unit.ordinal - b.length.toInt * b.unit.ordinal

section Sign

variable (h : (a.compareTo b).toInt.sign = (a.nanos - b.nanos).sign)
include h

theorem compareTo_pos_iff : 0 < a.compareTo b ↔ b.nanos < a.nanos := by
  rw [Int32.lt_iff_toInt_lt, show (0 : Int32).toInt = 0 from rfl, ← Int.sign_eq_one_iff_pos, h,
    Int.sign_eq_one_iff_pos]
  omega

theorem compareTo_nonpos_iff : a.compareTo b ≤ 0 ↔ a.nanos ≤ b.nanos := by
  have hpos := (compareTo_pos_iff h).not
  rw [Int32.lt_iff_toInt_lt, show (0 : Int32).toInt = 0 from rfl] at hpos
  rw [Int32.le_iff_toInt_le, show (0 : Int32).toInt = 0 from rfl]
  omega

theorem equals_iff : a.equals b = true ↔ a.nanos = b.nanos := by
  rw [equals, decide_eq_true_eq, ← Int32.toInt_inj, show (0 : Int32).toInt = 0 from rfl,
    ← Int.sign_eq_zero_iff_zero, h, Int.sign_eq_zero_iff_zero, Int.sub_eq_zero]

end Sign

/-- If nothing that matters is truncated, the durations are ordered by their lengths. -/
theorem orderedByLength_of_agrees (hS : Unsaturated S) (h : ∀ a ∈ S, ∀ b ∈ S, Agrees a b) :
    OrderedByLength S := by
  have hsign : ∀ a ∈ S, ∀ b ∈ S, (a.compareTo b).toInt.sign = (a.nanos - b.nanos).sign :=
    fun a ha b hb => (toInt_compareTo_eq_iff (hS a ha b hb)).mpr (h a ha b hb).of_tdiv_eq
  have hequals : ∀ a ∈ S, ∀ b ∈ S, (a.equals b = true ↔ a.nanos = b.nanos) :=
    fun a ha b hb => equals_iff (hsign a ha b hb)
  have hle : ∀ a ∈ S, ∀ b ∈ S, (a.compareTo b ≤ 0 ↔ a.nanos ≤ b.nanos) :=
    fun a ha b hb => compareTo_nonpos_iff (hsign a ha b hb)
  have hlt : ∀ a ∈ S, ∀ b ∈ S, (0 < a.compareTo b ↔ b.nanos < a.nanos) :=
    fun a ha b hb => compareTo_pos_iff (hsign a ha b hb)
  refine ⟨hsign, ?_, ?_, ?_, ?_, ?_, ?_, ?_, ?_, ?_⟩
  · intro a ha b hb
    rw [hsign a ha b hb, hsign b hb a ha, ← Int.sign_neg, neg_sub]
  · intro a ha b hb c hc
    rw [hle a ha b hb, hle b hb c hc, hle a ha c hc]
    exact le_trans
  · intro a ha b hb c hc
    rw [hlt a ha b hb, hlt b hb c hc, hlt a ha c hc]
    exact fun hab hbc => hbc.trans hab
  · intro a ha
    exact (hequals a ha a ha).mpr rfl
  · intro a ha b hb
    rw [hequals a ha b hb, hequals b hb a ha]
    exact Eq.symm
  · intro a ha b hb c hc
    rw [hequals a ha b hb, hequals b hb c hc, hequals a ha c hc]
    exact Eq.trans
  · intro a ha b hb heq
    exact hashCode_eq_iff.mpr ((h a ha b hb).hash ((hequals a ha b hb).mp heq))
  · intro a ha b hb
    rw [exceeds, decide_eq_true_eq]
    exact hlt a ha b hb
  · intro a ha b hb
    exact (le_max_iff (hS a ha b hb)).mpr (h a ha b hb).longer

/-- **The durations that are ordered by their lengths** are those of which no two that are compared
are truncated to the same length, or have the same length and different hash codes. -/
theorem orderedByLength_iff (hS : Unsaturated S) :
    OrderedByLength S ↔ ∀ a ∈ S, ∀ b ∈ S, Agrees a b := by
  constructor
  · intro h a ha b hb
    have hfits := hS a ha b hb
    refine ⟨(toInt_compareTo_eq_iff hfits).mp (h.sign_compareTo a ha b hb),
      (le_max_iff hfits).mp (h.max a ha b hb), fun heq => hashCode_eq_iff.mp ?_⟩
    exact h.hashCode a ha b hb ((equals_iff (h.sign_compareTo a ha b hb)).mpr heq)
  · exact orderedByLength_of_agrees hS

/-- Two seconds and 1500 milliseconds are ordered by length. -/
theorem orderedByLength_pair :
    OrderedByLength {⟨2, .seconds⟩, ⟨1500, .milliseconds⟩} := by
  have hmem {P : Duration → Prop} (h2 : P ⟨2, .seconds⟩) (h1500 : P ⟨1500, .milliseconds⟩) :
      ∀ a ∈ ({⟨2, .seconds⟩, ⟨1500, .milliseconds⟩} : Set Duration), P a := by
    rintro a (rfl | rfl)
    · exact h2
    · exact h1500
  refine (orderedByLength_iff ?_).mpr ?_
  · exact hmem (hmem (by decide) (by decide)) (hmem (by decide) (by decide))
  · exact hmem (hmem ⟨by decide, by decide, by decide⟩ ⟨by decide, by decide, by decide⟩)
      (hmem ⟨by decide, by decide, by decide⟩ ⟨by decide, by decide, by decide⟩)

/-- A duration that is given in the unit is not truncated. -/
theorem tdiv_of_unit_eq (h : a.unit = b.unit) : b.nanos.tdiv a.unit.nanos = b.length.toInt := by
  rw [h, nanos, Int.mul_tdiv_cancel _ b.unit.nanos_pos.ne']

/-- **Durations of one unit** are ordered by their lengths, whatever these are. -/
theorem orderedByLength_of_unit (h : ∀ a ∈ S, ∀ b ∈ S, a.unit = b.unit) : OrderedByLength S := by
  refine orderedByLength_of_agrees (fun a ha b hb => ?_) fun a ha b hb => ⟨fun heq => ?_, ?_, ?_⟩
  · rw [FitsIn, tdiv_of_unit_eq (h a ha b hb)]
    exact ⟨b.length.le_toInt, b.length.toInt_lt⟩
  · rw [tdiv_of_unit_eq (h a ha b hb)] at heq
    rw [nanos, nanos, heq, h a ha b hb]
  · rw [h a ha b hb]
    exact .inr (.inr (Int.dvd_mul_left ..))
  · intro hnanos
    rw [nanos, nanos, h a ha b hb] at hnanos
    rw [h a ha b hb, Int.eq_of_mul_eq_mul_right b.unit.nanos_pos.ne' hnanos, sub_self]
    exact Int.dvd_zero _

/-- **Durations of one length in different units** have different hash codes, unless they are zero
or their hash codes overflow. So a set that has both is not ordered by length. -/
theorem hashCode_ne_of_unit_ne (hnanos : a.nanos = b.nanos) (hunit : a.unit ≠ b.unit)
    (hzero : a.nanos ≠ 0) (ha : (a.length.toInt * a.unit.ordinal).natAbs < 2 ^ 31)
    (hb : (b.length.toInt * b.unit.ordinal).natAbs < 2 ^ 31) : a.hashCode ≠ b.hashCode := by
  rw [ne_eq, hashCode_eq_iff]
  rintro ⟨k, hk⟩
  -- Below the overflow the products are equal, but no two units have the same ratio.
  have heq : a.length.toInt * a.unit.ordinal = b.length.toInt * b.unit.ordinal := by omega
  obtain ⟨x, unit⟩ := a
  obtain ⟨y, unit'⟩ := b
  cases unit <;> cases unit' <;>
    first
      | exact hunit rfl
      | (simp only [nanos, TimeUnit.nanos, TimeUnit.ordinal] at hnanos hzero heq; omega)

/-- One second and 1500 milliseconds compare as equal, in the one order. -/
theorem not_orderedByLength_pair :
    ¬ OrderedByLength {⟨1, .seconds⟩, ⟨1500, .milliseconds⟩} := by
  intro h
  have hsign := h.sign_compareTo ⟨1, .seconds⟩ (.inl rfl) ⟨1500, .milliseconds⟩ (.inr rfl)
  exact absurd hsign (by decide)

/-! ### Remainders -/

/-- There is a remainder, it is smaller than the divisor, and differs from the dividend by a
multiple of the divisor. -/
def IsRemainder (d m : Duration) : Prop :=
  ∃ r, d.mod m = some r ∧ r.nanos.natAbs < m.nanos.natAbs ∧
    ∃ q : ℤ, d.nanos = q * m.nanos + r.nanos

/-- The divisor as it is truncated to the unit of the dividend, in nanoseconds. -/
def divisor (d m : Duration) : ℤ := m.nanos.tdiv d.unit.nanos * d.unit.nanos

variable {m : Duration}

theorem natAbs_divisor_le (d m : Duration) : (d.divisor m).natAbs ≤ m.nanos.natAbs := by
  rw [divisor, Int.natAbs_mul, Int.natAbs_tdiv]
  exact Nat.div_mul_le_self _ _

/-- The remainder is that of the exact lengths, by the truncated divisor. -/
theorem mod_eq_some (hfits : m.FitsIn d.unit) (hne : d.divisor m ≠ 0) :
    ∃ r, d.mod m = some r ∧ r.nanos = d.nanos.tmod (d.divisor m) := by
  have htoInt := toInt_getLength hfits
  have hzero : m.getLength d.unit ≠ 0 := by
    intro hzero
    rw [hzero, show (0 : Int64).toInt = 0 from rfl] at htoInt
    exact hne (by rw [divisor, ← htoInt, zero_mul])
  refine ⟨_, if_neg hzero, ?_⟩
  calc (d.length % m.getLength d.unit).toInt * d.unit.nanos
      = d.length.toInt.tmod (m.nanos.tdiv d.unit.nanos) * d.unit.nanos := by
        rw [Int64.toInt_mod, htoInt]
    _ = (d.unit.nanos * d.length.toInt).tmod (d.unit.nanos * m.nanos.tdiv d.unit.nanos) := by
        rw [Int.mul_tmod_mul_of_pos _ _ d.unit.nanos_pos, mul_comm]
    _ = d.nanos.tmod (d.divisor m) := by
        rw [mul_comm, mul_comm d.unit.nanos]
        rfl

theorem mod_eq_none (hfits : m.FitsIn d.unit) (hzero : d.divisor m = 0) : d.mod m = none := by
  have htdiv := (Int.mul_eq_zero.mp hzero).resolve_right d.unit.nanos_pos.ne'
  refine if_pos (Int64.toInt_inj.mp ?_)
  rw [toInt_getLength hfits, htdiv]
  rfl

/-- What `mod` returns is smaller than the divisor. -/
theorem natAbs_tmod_divisor_lt (hzero : d.divisor m ≠ 0) :
    (d.nanos.tmod (d.divisor m)).natAbs < m.nanos.natAbs := by
  have := natAbs_divisor_le d m
  have := Nat.mod_lt d.nanos.natAbs (Int.natAbs_pos.mpr hzero)
  rw [Int.natAbs_tmod]
  omega

theorem isRemainder_of_dvd_mul (hfits : m.FitsIn d.unit) (hzero : d.divisor m ≠ 0)
    (h : m.nanos ∣ d.nanos.tdiv (d.divisor m) * d.divisor m) : IsRemainder d m := by
  obtain ⟨r, hr, hnanos⟩ := mod_eq_some hfits hzero
  obtain ⟨q, hq⟩ := h
  rw [Int.tdiv_mul_self, ← hnanos] at hq
  refine ⟨r, hr, ?_, q, by rw [mul_comm]; omega⟩
  rw [hnanos]
  exact natAbs_tmod_divisor_lt hzero

/-- **The durations that have a remainder**: the truncated divisor is not zero, and the multiple of
it that is taken away is a multiple of the divisor itself. -/
theorem isRemainder_iff (hfits : m.FitsIn d.unit) :
    IsRemainder d m ↔
      d.divisor m ≠ 0 ∧ m.nanos ∣ d.nanos.tdiv (d.divisor m) * d.divisor m := by
  constructor
  · intro h
    by_cases hzero : d.divisor m = 0
    · obtain ⟨r, hr, -⟩ := h
      rw [mod_eq_none hfits hzero] at hr
      cases hr
    · obtain ⟨r, hr, hnanos⟩ := mod_eq_some hfits hzero
      obtain ⟨_, hr', -, q, hq⟩ := h
      obtain rfl := Option.some.inj (hr.symm.trans hr')
      refine ⟨hzero, q, ?_⟩
      rw [Int.tdiv_mul_self, ← hnanos, hq, mul_comm]
      omega
  · rintro ⟨hzero, h⟩
    exact isRemainder_of_dvd_mul hfits hzero h

theorem isRemainder_milliseconds : IsRemainder ⟨2500, .milliseconds⟩ ⟨1, .seconds⟩ :=
  (isRemainder_iff (by decide)).mpr ⟨by decide, by decide⟩

/-- **A divisor of whole units**, if it is not zero, always has a remainder. -/
theorem isRemainder_of_dvd (hfits : m.FitsIn d.unit) (hdvd : d.unit.nanos ∣ m.nanos)
    (hne : m.nanos ≠ 0) : IsRemainder d m := by
  have hdivisor : d.divisor m = m.nanos := Int.tdiv_mul_cancel hdvd
  refine isRemainder_of_dvd_mul hfits (by rwa [hdivisor]) ?_
  rw [hdivisor]
  exact Int.dvd_mul_left ..

/-- Seconds by a millisecond are divided by zero. -/
theorem not_isRemainder_seconds : ¬ IsRemainder ⟨5, .seconds⟩ ⟨1, .milliseconds⟩ := by
  rintro ⟨r, hr, -⟩
  rw [mod_eq_none (by decide) (by decide)] at hr
  exact absurd hr (by simp)

end Duration

end Shabdiz
