import Shabdiz.Util.HostRanges

/-!
# The limit on the number of hosts

A limit is meant to be the largest number of hosts that a pattern is resolved to. It is added to the
first number of a range, and where this sum wraps around, the limit itself is taken for the last
number. A range that begins at zero comes to the same, and has one host too many; a dotted quad has
no limit. When the loop stops at the largest `int`, it does not end.

## Main definitions

* `Patterns.RespectsLimit` — the hosts are the first ones, and not more than the limit
* `Patterns.ResolvesSafely` — the loop ends, and nothing wraps around

## Main results

* `Patterns.respectsLimit_iff` — when the limit is respected
* `Patterns.resolvesSafely_iff` — when nothing wraps around
* `Patterns.exists_resolves_iff` — when the loop ends
-/

namespace Shabdiz

namespace Patterns

variable {hostPattern : List Char} {rangeLimit : Int32} {hosts : List (List Char)} {r : HostRange}
  {m n : ℕ}

/-! ### The number of hosts -/

/-- The hosts are the first ones of those without a limit, at least one and not more than the
limit. -/
def RespectsLimit (hostPattern : List Char) (rangeLimit : Int32) : Prop :=
  ∃ hosts all, Resolves hostPattern rangeLimit hosts ∧ Resolves hostPattern Int32.maxValue all ∧
    hosts ≠ [] ∧ (hosts.length : ℤ) ≤ rangeLimit.toInt ∧
      hosts = all.take rangeLimit.toInt.toNat

/-- The numbers of a range are ones for which the limit is computed right: the last number can be
passed, and where the limit is taken for the last number, it is not too small. -/
def HostRange.SuitsLimit (r : HostRange) (rangeLimit : Int32) : Prop :=
  r.last.toInt < 2 ^ 31 - 1 ∧
    (r.first.toInt = 0 → r.last.toInt < rangeLimit.toInt) ∧
      (2 ^ 31 < r.first.toInt + rangeLimit.toInt → r.last.toInt ≤ rangeLimit.toInt)

instance : Decidable (r.SuitsLimit rangeLimit) := inferInstanceAs (Decidable (_ ∧ _))

theorem take_hosts : (r.hosts n).take m = r.hosts (min m n) := by
  rw [HostRange.hosts, HostRange.hosts, ← List.map_take]
  rcases Nat.le_total n m with h | h
  · rw [List.take_range'_of_length_le h, min_eq_right h]
  · rw [List.take_range'_of_length_ge h, min_eq_left h]

/-- The loop stops where it should, if the sum of the first number and the limit is an `int`. -/
theorem HostRange.toInt_stop_of_le (hmin : -2 ^ 31 < r.first.toInt + rangeLimit.toInt)
    (hmax : r.first.toInt + rangeLimit.toInt ≤ 2 ^ 31) :
    (r.stop rangeLimit).toInt =
      min r.last.toInt (max (r.first.toInt + rangeLimit.toInt - 1) rangeLimit.toInt) := by
  rw [r.toInt_stop, Int.bmod_eq_of_le (by omega) (by omega)]

/-- A sum that is too large becomes a negative one, and the limit is taken for the last number. -/
theorem HostRange.toInt_stop_of_lt (h : 2 ^ 31 < r.first.toInt + rangeLimit.toInt) :
    (r.stop rangeLimit).toInt = min r.last.toInt rangeLimit.toInt := by
  have hfirst := r.first.toInt_lt
  have hlimit := rangeLimit.toInt_lt
  have hwrap : (r.first.toInt + rangeLimit.toInt - 1).bmod (2 ^ 32) =
      r.first.toInt + rangeLimit.toInt - 1 - 2 ^ 32 := by
    simp only [Int.bmod]
    omega
  rw [r.toInt_stop, hwrap, max_eq_right (by omega)]

/-- The sum that is too small, of zero and the smallest limit, becomes the largest `int`. -/
theorem HostRange.toInt_stop_minValue (hfirst : r.first.toInt = 0)
    (hlimit : rangeLimit.toInt = -2 ^ 31) : (r.stop rangeLimit).toInt = r.last.toInt := by
  have hlast := r.last.toInt_lt
  rw [r.toInt_stop, hfirst, hlimit,
    show (0 + -2 ^ 31 - 1 : ℤ).bmod (2 ^ 32) = 2 ^ 31 - 1 from rfl]
  omega

/-- The number of hosts is the right one exactly if the range suits the limit. -/
theorem count_eq_iff (hlimit : 0 < rangeLimit.toInt) (hle : r.first.toInt ≤ r.last.toInt)
    (hlast : r.last.toInt < 2 ^ 31 - 1) :
    (r.count rangeLimit ≠ 0 ∧
      r.count rangeLimit = min rangeLimit.toInt.toNat (r.count Int32.maxValue)) ↔
        r.SuitsLimit rangeLimit := by
  have hnonneg := r.nonneg
  have hmax := rangeLimit.toInt_lt
  rw [HostRange.count, HostRange.count, r.toInt_stop_maxValue, HostRange.SuitsLimit]
  rcases Int.lt_or_le (2 ^ 31) (r.first.toInt + rangeLimit.toInt) with hlt | hle
  · rw [HostRange.toInt_stop_of_lt hlt]
    omega
  · rw [HostRange.toInt_stop_of_le (by omega) hle]
    omega

theorem respectsLimit_of_none (h : parseRange hostPattern = none)
    (hlimit : 0 < rangeLimit.toInt) :
    RespectsLimit hostPattern rangeLimit ↔
      (validWildCardedDottedQuadFormat hostPattern = true → 256 ≤ rangeLimit.toInt) := by
  have hrespects : RespectsLimit hostPattern rangeLimit ↔
      hostsWithoutRange hostPattern ≠ [] ∧
        ((hostsWithoutRange hostPattern).length : ℤ) ≤ rangeLimit.toInt := by
    simp only [RespectsLimit, resolves_iff_of_none h, exists_and_left, exists_eq_left]
    refine ⟨fun ⟨hne, hlength, _⟩ => ⟨hne, hlength⟩, fun ⟨hne, hlength⟩ => ⟨hne, hlength, ?_⟩⟩
    rw [List.take_of_length_le (by omega)]
  rw [hrespects, hostsWithoutRange]
  split
  · next hquad =>
    have hlength := length_tryDottedQuad hquad
    have hne : tryDottedQuad hostPattern ≠ [] := List.ne_nil_of_length_pos (by omega)
    rw [hlength, forall_prop_of_true hquad, and_iff_right hne, maxByteValue]
    rfl
  · next hquad =>
    have hone : (([hostPattern].length : ℕ) : ℤ) ≤ rangeLimit.toInt := by
      rw [List.length_singleton]
      omega
    exact iff_of_true ⟨List.cons_ne_nil _ _, hone⟩ fun h => absurd h hquad

theorem respectsLimit_of_lt (h : parseRange hostPattern = some r)
    (hlt : r.last.toInt < r.first.toInt) (hlimit : 0 < rangeLimit.toInt) :
    RespectsLimit hostPattern rangeLimit := by
  have hresolves (limit : Int32) : Resolves hostPattern limit [hostPattern] := by
    have hstop := r.toInt_stop limit
    have hfirst := r.first.toInt_lt
    have hcount : r.count limit = 0 := by
      rw [HostRange.count]
      omega
    rw [resolves_iff_of_some h, if_pos hcount]
    exact ⟨by omega, rfl⟩
  have hone : (([hostPattern].length : ℕ) : ℤ) ≤ rangeLimit.toInt := by
    rw [List.length_singleton]
    omega
  refine ⟨[hostPattern], [hostPattern], hresolves _, hresolves _, List.cons_ne_nil _ _, hone, ?_⟩
  rw [List.take_of_length_le (by omega)]

theorem respectsLimit_of_le (h : parseRange hostPattern = some r)
    (hle : r.first.toInt ≤ r.last.toInt) (hlimit : 0 < rangeLimit.toInt) :
    RespectsLimit hostPattern rangeLimit ↔ r.SuitsLimit rangeLimit := by
  have hcount : r.count Int32.maxValue ≠ 0 := by
    rw [HostRange.count, r.toInt_stop_maxValue]
    omega
  simp only [RespectsLimit, resolves_iff_of_some h, if_neg hcount, r.toInt_stop_maxValue]
  constructor
  · rintro ⟨hosts, all, hresolves, hall, _, _, htake⟩
    have hhosts := hresolves.2
    rw [hall.2, take_hosts] at htake
    refine (count_eq_iff hlimit hle hall.1).mp ?_
    by_cases hzero : r.count rangeLimit = 0
    · -- The pattern would be one of its hosts.
      rw [if_pos hzero] at hhosts
      have hmem : hostPattern ∈ hosts := by rw [hhosts]; exact List.mem_singleton_self _
      exact absurd (htake ▸ hmem) (notMem_hosts h)
    · rw [if_neg hzero] at hhosts
      have hlength := congrArg List.length (hhosts.symm.trans htake)
      rw [length_hosts, length_hosts] at hlength
      exact ⟨hzero, hlength⟩
  · intro hsuits
    obtain ⟨hzero, hmin⟩ := (count_eq_iff hlimit hle hsuits.1).mpr hsuits
    have hstop : (r.stop rangeLimit).toInt < 2 ^ 31 - 1 := by
      have := r.toInt_stop rangeLimit
      have := hsuits.1
      omega
    refine ⟨r.hosts (r.count rangeLimit), _, ⟨hstop, (if_neg hzero).symm⟩, ⟨hsuits.1, rfl⟩,
      ?_, ?_, ?_⟩
    · refine List.ne_nil_of_length_pos ?_
      rw [length_hosts]
      omega
    · rw [length_hosts]
      omega
    · rw [take_hosts, ← hmin]

/-- **When the limit is respected.** The range of the pattern must suit it, and a dotted quad must
have room. -/
theorem respectsLimit_iff (hlimit : 0 < rangeLimit) :
    RespectsLimit hostPattern rangeLimit ↔
      (∀ r, parseRange hostPattern = some r → r.first.toInt ≤ r.last.toInt →
        r.SuitsLimit rangeLimit) ∧
        (validWildCardedDottedQuadFormat hostPattern = true → 256 ≤ rangeLimit.toInt) := by
  have hpos : 0 < rangeLimit.toInt := Int32.lt_iff_toInt_lt.mp hlimit
  cases h : parseRange hostPattern with
  | none => simp [respectsLimit_of_none h hpos]
  | some r =>
    have hquad := not_validWildCardedDottedQuadFormat h
    rw [and_iff_left fun hvalid => absurd hvalid hquad]
    simp only [Option.some.injEq, forall_eq']
    rcases Int.lt_or_le r.last.toInt r.first.toInt with hlt | hle
    · have hrespects := respectsLimit_of_lt h hlt hpos
      exact iff_of_true hrespects fun hle => absurd hle (by omega)
    · rw [respectsLimit_of_le h hle hpos, forall_prop_of_true hle]

/-- Ten hosts that are counted from one are within a limit of ten. -/
theorem respectsLimit_h1 : RespectsLimit "h1 - h10".toList 10 := by
  have hrange : parseRange "h1 - h10".toList = some ⟨['h'], 1, 10, 1, by decide⟩ := by decide
  refine (respectsLimit_iff (by decide)).mpr ⟨?_, by decide⟩
  simp only [hrange, Option.some.injEq, forall_eq']
  decide

/-- Ten hosts that are counted from zero are not within a limit of five: there are six. -/
theorem not_respectsLimit_h0 : ¬ RespectsLimit "h0 - h9".toList 5 := by
  have hrange : parseRange "h0 - h9".toList = some ⟨['h'], 0, 9, 1, by decide⟩ := by decide
  rw [respectsLimit_of_le hrange (by decide) (by decide)]
  decide

/-! ### The end of the loop -/

/-- The loop comes to this index. -/
inductive HostRange.Visits (r : HostRange) (rangeLimit : Int32) : Int32 → Prop
  | first : r.Visits rangeLimit r.first
  | next {index : Int32} : r.Visits rangeLimit index → index ≤ r.stop rangeLimit →
      r.Visits rangeLimit (index + 1)

/-- The pattern is resolved, no index of its range is followed by a smaller one, and the loop stops
at the index it would stop at if the computation had not been one of `int`s. -/
structure ResolvesSafely (hostPattern : List Char) (rangeLimit : Int32) : Prop where
  terminates : ∃ hosts, Resolves hostPattern rangeLimit hosts
  index : ∀ r, parseRange hostPattern = some r → ∀ index, r.Visits rangeLimit index →
    index ≤ r.stop rangeLimit → (index + 1).toInt = index.toInt + 1
  stop : ∀ r, parseRange hostPattern = some r → (r.stop rangeLimit).toInt =
    min r.last.toInt (max (r.first.toInt + rangeLimit.toInt - 1) rangeLimit.toInt)

/-- The last number or the limit is such that the sum of the first number and the limit does not
wrap around, or is not used; and the loop does not stop at the largest `int`. -/
def HostRange.AvoidsOverflow (r : HostRange) (rangeLimit : Int32) : Prop :=
  (r.first.toInt + rangeLimit.toInt ≤ 2 ^ 31 ∨ r.last.toInt ≤ rangeLimit.toInt) ∧
    (r.first.toInt = 0 → rangeLimit.toInt = -2 ^ 31 → r.last.toInt = -2 ^ 31) ∧
      (r.last.toInt = 2 ^ 31 - 1 →
        rangeLimit.toInt ≠ 2 ^ 31 - 1 ∧ r.first.toInt + rangeLimit.toInt ≠ 2 ^ 31)

/-- **When the loop ends**: it must not stop at the largest `int`. -/
theorem exists_resolves_iff :
    (∃ hosts, Resolves hostPattern rangeLimit hosts) ↔
      ∀ r, parseRange hostPattern = some r → (r.stop rangeLimit).toInt < 2 ^ 31 - 1 := by
  cases h : parseRange hostPattern with
  | none => simp [resolves_iff_of_none h]
  | some r => simp [resolves_iff_of_some h]

/-- The loop stops at the exact index, before the largest `int`, exactly if nothing overflows. -/
theorem avoidsOverflow_iff :
    r.AvoidsOverflow rangeLimit ↔
      (r.stop rangeLimit).toInt < 2 ^ 31 - 1 ∧ (r.stop rangeLimit).toInt =
        min r.last.toInt (max (r.first.toInt + rangeLimit.toInt - 1) rangeLimit.toInt) := by
  have hnonneg := r.nonneg
  have hfirst := r.first.toInt_lt
  have hlast := r.last.toInt_lt
  have hmax := rangeLimit.toInt_lt
  have hmin := rangeLimit.le_toInt
  have hlastMin := r.last.le_toInt
  rw [HostRange.AvoidsOverflow]
  rcases Int.lt_or_le (2 ^ 31) (r.first.toInt + rangeLimit.toInt) with hlt | hle
  · rw [HostRange.toInt_stop_of_lt hlt]
    omega
  · rcases Int.lt_or_le (-2 ^ 31) (r.first.toInt + rangeLimit.toInt) with hlt' | hle'
    · rw [HostRange.toInt_stop_of_le hlt' hle]
      omega
    · rw [HostRange.toInt_stop_minValue (by omega) (by omega)]
      omega

/-- **When nothing wraps around.** -/
theorem resolvesSafely_iff :
    ResolvesSafely hostPattern rangeLimit ↔
      ∀ r, parseRange hostPattern = some r → r.AvoidsOverflow rangeLimit := by
  simp only [avoidsOverflow_iff]
  constructor
  · intro hsafe r hr
    exact ⟨exists_resolves_iff.mp hsafe.terminates r hr, hsafe.stop r hr⟩
  · intro h
    refine ⟨exists_resolves_iff.mpr fun r hr => (h r hr).1, fun r hr index _ hle => ?_,
      fun r hr => (h r hr).2⟩
    have hstop := (h r hr).1
    rw [Int32.le_iff_toInt_le] at hle
    exact toInt_add_one (by omega)

/-- The range of the largest `int` alone is never resolved. -/
theorem not_resolvesSafely_maxValue :
    ¬ ResolvesSafely "h2147483647 - h2147483647".toList Int32.maxValue := by
  have hrange : parseRange "h2147483647 - h2147483647".toList =
      some ⟨['h'], Int32.maxValue, Int32.maxValue, 10, by decide⟩ := by decide
  intro hsafe
  have hstop := exists_resolves_iff.mp hsafe.terminates _ hrange
  exact absurd hstop (by decide)

end Patterns

end Shabdiz
