import Shabdiz.Text.Numeral
import Shabdiz.Text.Split
import Shabdiz.Util.Duration

/-!
# Durations as texts

A duration is written as its length, a blank and the abbreviation of its unit. It is read by
splitting the text at the first blank, which a text need not have, and looking the unit up among the
abbreviations, in the order of the keys of a hash map, and among the names of the units.

## Main definitions

* `Duration.toString`, `Duration.expand`, `Duration.valueOf` — the code
* `Duration.IsText` — the texts that stand for a duration
* `Duration.ReadsAsDocumented` — a text is read, or rejected in the way it should be

## Main results

* `Duration.expand_eq_some_iff` — the texts that stand for a unit, whatever the order of the keys
* `Duration.valueOf_iff` — what is written is read, and what is rejected as it should be
-/

namespace Shabdiz

namespace TimeUnit

/-- The name of the constant. -/
def name : TimeUnit → List Char
  | nanoseconds => "NANOSECONDS".toList
  | microseconds => "MICROSECONDS".toList
  | milliseconds => "MILLISECONDS".toList
  | seconds => "SECONDS".toList
  | minutes => "MINUTES".toList
  | hours => "HOURS".toList
  | days => "DAYS".toList

/-- The units in their order. -/
def values : List TimeUnit :=
  [nanoseconds, microseconds, milliseconds, seconds, minutes, hours, days]

/-- `none` stands for an `IllegalArgumentException`. -/
def valueOf (s : List Char) : Option TimeUnit := values.find? (·.name = s)

theorem valueOf_name (unit : TimeUnit) : valueOf unit.name = some unit := by
  cases unit <;> rfl

theorem valueOf_eq_some_iff {s : List Char} {unit : TimeUnit} :
    valueOf s = some unit ↔ s = unit.name := by
  constructor
  · intro h
    have hfound := List.find?_some h
    exact (of_decide_eq_true hfound).symm
  · rintro rfl
    exact valueOf_name unit

end TimeUnit

namespace Duration

/-! ### The code -/

/-- `UNIT_ABBREVIATIONS`. -/
def abbreviate : TimeUnit → List Char
  | .nanoseconds => "ns".toList
  | .microseconds => "micros".toList
  | .milliseconds => "ms".toList
  | .seconds => "s".toList
  | .minutes => "min".toList
  | .hours => "hrs".toList
  | .days => "days".toList

/-- The keys of `UNIT_ABBREVIATIONS`, in the order in which the map iterates over them. -/
structure KeySet where
  units : List TimeUnit
  nodup : units.Nodup
  complete : ∀ unit, unit ∈ units

/-- What can be thrown when a text is read. A `NumberFormatException` is an
`IllegalArgumentException`, a `StringIndexOutOfBoundsException` is not. -/
inductive ValueOfException where
  | stringIndexOutOfBounds
  | numberFormat
  | illegalArgument
deriving DecidableEq

/-- The length, a space, and the abbreviation of the unit. -/
protected def toString (d : Duration) : List Char :=
  integerText d.length.toInt ++ ' ' :: abbreviate d.unit

/-- The loop over the units; `none` stands for an `IllegalArgumentException`. -/
def expand : List TimeUnit → List Char → Option TimeUnit
  | [], _ => none
  | unit :: units, unitAsString =>
    if abbreviate unit = unitAsString then some unit
    else match TimeUnit.valueOf unitAsString with
      | some named => some named
      | none => expand units unitAsString

/-- The duration of a text, which has a length, a space and a unit. -/
def valueOf (keys : KeySet) (s : List Char) : Except ValueOfException Duration :=
  match s.idxOf? ' ' with
  | none => .error .stringIndexOutOfBounds
  | some indexOfSpace =>
    match Long.parseLong (s.take indexOfSpace) with
    | none => .error .numberFormat
    | some length =>
      match expand keys.units (s.drop (indexOfSpace + 1)) with
      | none => .error .illegalArgument
      | some unit => .ok ⟨length, unit⟩

/-- A duration with the name of its unit. -/
def toStringWithName (d : Duration) : List Char :=
  integerText d.length.toInt ++ ' ' :: d.unit.name

/-! ### Units -/

variable {keys : KeySet} {units : List TimeUnit} {unit : TimeUnit} {d : Duration}
  {s t u : List Char}

theorem valueOf_abbreviate (unit : TimeUnit) : TimeUnit.valueOf (abbreviate unit) = none := by
  cases unit <;> rfl

theorem abbreviate_injective : Function.Injective abbreviate := by
  have hfind (unit : TimeUnit) :
      TimeUnit.values.find? (abbreviate · = abbreviate unit) = some unit := by
    cases unit <;> rfl
  intro first second h
  have hfirst := hfind first
  rw [h, hfind second] at hfirst
  exact (Option.some.inj hfirst).symm

theorem expand_abbreviate (h : unit ∈ units) : expand units (abbreviate unit) = some unit := by
  induction units with
  | nil => exact absurd h List.not_mem_nil
  | cons first units ih =>
    rw [expand]
    split
    · next heq => rw [abbreviate_injective heq]
    · next hne =>
      have hmem : unit ∈ units := by
        rcases List.mem_cons.mp h with rfl | hmem
        · exact absurd rfl hne
        · exact hmem
      rw [valueOf_abbreviate, ih hmem]

theorem expand_name (h : units ≠ []) : expand units unit.name = some unit := by
  obtain ⟨first, units, rfl⟩ := List.exists_cons_of_ne_nil h
  have hne : abbreviate first ≠ unit.name := by
    intro heq
    have hnone := valueOf_abbreviate first
    rw [heq, TimeUnit.valueOf_name] at hnone
    exact absurd hnone (by simp)
  rw [expand, if_neg hne, TimeUnit.valueOf_name]

theorem eq_of_expand (h : expand units s = some unit) : s = abbreviate unit ∨ s = unit.name := by
  induction units with
  | nil => exact absurd h (by simp [expand])
  | cons first units ih =>
    rw [expand] at h
    split at h
    · next heq =>
      rw [← Option.some.inj h, heq]
      exact .inl rfl
    · split at h
      · next named hnamed =>
        rw [← Option.some.inj h]
        exact .inr (TimeUnit.valueOf_eq_some_iff.mp hnamed)
      · exact ih h

/-- **A text stands for a unit** if it is its abbreviation or its name. -/
theorem expand_eq_some_iff :
    expand keys.units s = some unit ↔ s = abbreviate unit ∨ s = unit.name := by
  constructor
  · exact eq_of_expand
  · rintro (rfl | rfl)
    · exact expand_abbreviate (keys.complete unit)
    · exact expand_name (List.ne_nil_of_mem (keys.complete unit))

/-! ### Reading -/

/-- The text is a `long`, a blank, and the abbreviation or the name of a unit. -/
def IsText (s : List Char) (d : Duration) : Prop :=
  ∃ t u, s = t ++ ' ' :: u ∧ integer? t = some d.length.toInt ∧
    (u = abbreviate d.unit ∨ u = d.unit.name)

/-- A text for a duration is read as this duration, and any other text is rejected with an
`IllegalArgumentException`. -/
def ReadsAsDocumented (keys : KeySet) (s : List Char) : Prop :=
  (∀ d, IsText s d → valueOf keys s = .ok d) ∧
    ((¬ ∃ d, IsText s d) →
      valueOf keys s = .error .numberFormat ∨ valueOf keys s = .error .illegalArgument)

/-- No numeral has a blank in it. -/
theorem blank_notMem {i : ℤ} (h : integer? t = some i) : ' ' ∉ t := by
  intro hmem
  exact absurd (isNumeric_of_integer? h ' ' hmem) (by decide)

/-- A text without a blank is rejected by an exception that is not documented. -/
theorem valueOf_of_notMem (h : ' ' ∉ s) : valueOf keys s = .error .stringIndexOutOfBounds := by
  rw [valueOf, List.idxOf?_eq_none_iff.mpr h]

/-- A text with a blank is split at the first one. -/
theorem valueOf_append_cons (h : ' ' ∉ t) :
    valueOf keys (t ++ ' ' :: u) =
      ((Long.parseLong t).elim (.error .numberFormat) fun length =>
        (expand keys.units u).elim (.error .illegalArgument) fun unit => .ok ⟨length, unit⟩) := by
  rw [valueOf, idxOf?_append_cons h]
  simp only [List.take_left', List.drop_append, Nat.add_sub_cancel_left, List.drop_succ_cons,
    List.drop_zero, List.drop_eq_nil_of_le (Nat.le_succ t.length), List.nil_append]
  cases Long.parseLong t with
  | none => rfl
  | some length => cases expand keys.units u <;> rfl

theorem valueOf_of_isText (h : IsText s d) : valueOf keys s = .ok d := by
  obtain ⟨t, u, rfl, ht, hu⟩ := h
  rw [valueOf_append_cons (blank_notMem ht), Long.parseLong_eq_some_iff.mpr ht,
    expand_eq_some_iff.mpr hu]
  rfl

theorem readsAsDocumented_iff : ReadsAsDocumented keys s ↔ ' ' ∈ s := by
  constructor
  · rintro ⟨_, hrejects⟩
    by_contra hblank
    rw [valueOf_of_notMem hblank] at hrejects
    have hnot : ¬ ∃ d, IsText s d := by
      rintro ⟨d, t, u, rfl, -⟩
      exact hblank (by simp)
    exact absurd (hrejects hnot) (by simp)
  · intro hblank
    obtain ⟨t, u, rfl, ht⟩ := List.eq_append_cons_of_mem hblank
    refine ⟨fun d hd => valueOf_of_isText hd, fun hnot => ?_⟩
    rw [valueOf_append_cons ht]
    cases hlength : Long.parseLong t with
    | none => exact .inl rfl
    | some length =>
      cases hunit : expand keys.units u with
      | none => exact .inr rfl
      | some unit =>
        refine absurd ⟨⟨length, unit⟩, t, u, rfl, ?_, ?_⟩ hnot
        · exact Long.parseLong_eq_some_iff.mp hlength
        · exact expand_eq_some_iff.mp hunit

/-- **Durations are read back** from both of their forms, and the texts that are read, or rejected,
as it is documented are those that have a blank. -/
theorem valueOf_iff (keys : KeySet) :
    (∀ d, valueOf keys d.toString = .ok d ∧ valueOf keys d.toStringWithName = .ok d) ∧
      ∀ s, ReadsAsDocumented keys s ↔ ' ' ∈ s := by
  refine ⟨fun d => ⟨?_, ?_⟩, fun _ => readsAsDocumented_iff⟩
  · exact valueOf_of_isText ⟨_, _, rfl, integer?_integerText _, .inl rfl⟩
  · exact valueOf_of_isText ⟨_, _, rfl, integer?_integerText _, .inr rfl⟩

/-- A number without a unit is rejected by an exception that is not documented, whatever the order
of the keys. -/
theorem not_readsAsDocumented_five : ¬ ∃ keys : KeySet, ReadsAsDocumented keys ['5'] := by
  rintro ⟨keys, h⟩
  exact absurd (readsAsDocumented_iff.mp h) (by decide)

end Duration

end Shabdiz
