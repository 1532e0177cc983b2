import Mathlib.Algebra.Ring.Int.Defs
import Mathlib.Data.List.Basic

/-!
# Decimal numerals

Numerals as `Integer.parseInt` and `Long.parseLong` read them: an optional sign, and then one or
more decimal digits, which need not be the ASCII digits. Numerals are written without a sign
unless they are negative, without needless zeros, and in ASCII.

## Main definitions

* `digit?`, `natural?`, `integer?` — what digits and numerals stand for
* `Integer.parseInt`, `Long.parseLong` — numerals within the range of an `int` and of a `long`
* `integerText`, `padded` — how a number is written

## Main results

* `Integer.parseInt_eq_some_iff`, `Long.parseLong_eq_some_iff` — what the parsers accept
* `natural?_of_isDigit` — ASCII digits are read
* `integer?_integerText`, `natural?_padded` — what is written is read
-/

namespace Shabdiz

/-! ### Reading -/

/-- The code points of the digits zero of the basic plane. The other nine digits of a script
follow its zero. -/
def digitZeros : List ℕ :=
  [0x0030, 0x0660, 0x06F0, 0x07C0, 0x0966, 0x09E6, 0x0A66, 0x0AE6, 0x0B66, 0x0BE6, 0x0C66, 0x0CE6,
    0x0D66, 0x0E50, 0x0ED0, 0x0F20, 0x1040, 0x1090, 0x17E0, 0x1810, 0x1946, 0x19D0, 0x1A80, 0x1A90,
    0x1B50, 0x1BB0, 0x1C40, 0x1C50, 0xA620, 0xA8D0, 0xA900, 0xA9D0, 0xAA50, 0xABF0, 0xFF10]

/-- `Character.digit`, for the radix ten. -/
def digit? (c : Char) : Option ℕ :=
  (digitZeros.find? fun first => first ≤ c.toNat && c.toNat < first + 10).map (c.toNat - ·)

/-- What one or more digits stand for. -/
def natural? (s : List Char) : Option ℕ :=
  if s = [] then none else (s.mapM digit?).map fun digits => digits.foldl (fun n d => 10 * n + d) 0

/-- What a numeral stands for, however large. -/
def integer? : List Char → Option ℤ
  | '-' :: s => (natural? s).map fun n : ℕ => -(n : ℤ)
  | '+' :: s => (natural? s).map fun n : ℕ => (n : ℤ)
  | s => (natural? s).map fun n : ℕ => (n : ℤ)

/-- `Integer.parseInt`; `none` is its `NumberFormatException`. -/
def Integer.parseInt (s : List Char) : Option Int32 :=
  (integer? s).bind fun i => if -2 ^ 31 ≤ i ∧ i < 2 ^ 31 then some (.ofInt i) else none

/-- `Long.parseLong`; `none` is its `NumberFormatException`. -/
def Long.parseLong (s : List Char) : Option Int64 :=
  (integer? s).bind fun i => if -2 ^ 63 ≤ i ∧ i < 2 ^ 63 then some (.ofInt i) else none

theorem Integer.parseInt_eq_some_iff {s : List Char} {i : Int32} :
    Integer.parseInt s = some i ↔ integer? s = some i.toInt := by
  rw [parseInt, Option.bind_eq_some_iff]
  constructor
  · rintro ⟨j, hj, h⟩
    obtain ⟨hrange, h⟩ := Option.ite_none_right_eq_some.mp h
    obtain rfl := Option.some.inj h
    rw [hj, Int32.toInt_ofInt_of_le hrange.1 hrange.2]
  · intro h
    refine ⟨i.toInt, h, ?_⟩
    rw [if_pos ⟨i.le_toInt, i.toInt_lt⟩, Int32.ofInt_toInt]

theorem Long.parseLong_eq_some_iff {s : List Char} {i : Int64} :
    Long.parseLong s = some i ↔ integer? s = some i.toInt := by
  rw [parseLong, Option.bind_eq_some_iff]
  constructor
  · rintro ⟨j, hj, h⟩
    obtain ⟨hrange, h⟩ := Option.ite_none_right_eq_some.mp h
    obtain rfl := Option.some.inj h
    rw [hj, Int64.toInt_ofInt_of_le hrange.1 hrange.2]
  · intro h
    refine ⟨i.toInt, h, ?_⟩
    rw [if_pos ⟨i.le_toInt, i.toInt_lt⟩, Int64.ofInt_toInt]

/-! ### Digits -/

section Digits

variable {c : Char} {s : List Char}

theorem isDigit_iff : c.isDigit = true ↔ 48 ≤ c.toNat ∧ c.toNat ≤ 57 := by
  simp only [Char.isDigit, Bool.and_eq_true, decide_eq_true_eq, Char.toNat, UInt32.le_iff_toNat_le]
  rfl

theorem digit?_of_isDigit (h : c.isDigit = true) : digit? c = some (c.toNat - 48) := by
  have hrange := isDigit_iff.mp h
  have hfind : digitZeros.find? (fun first => first ≤ c.toNat && c.toNat < first + 10) =
      some 48 := by
    refine List.find?_cons_of_pos ?_
    simp only [Bool.and_eq_true, decide_eq_true_eq]
    omega
  rw [digit?, hfind, Option.map_some]

theorem mapM_digit?_of_isDigit (h : ∀ c ∈ s, c.isDigit = true) :
    s.mapM digit? = some (s.map fun c => c.toNat - 48) := by
  induction s with
  | nil => rfl
  | cons c s ih =>
    obtain ⟨hc, hs⟩ := List.forall_mem_cons.mp h
    simp [digit?_of_isDigit hc, ih hs]

/-- **ASCII digits are read.** -/
theorem natural?_of_isDigit (hne : s ≠ []) (h : ∀ c ∈ s, c.isDigit = true) :
    natural? s = some (Nat.ofDigitChars 10 s 0) := by
  rw [natural?, if_neg hne, mapM_digit?_of_isDigit h, Option.map_some, List.foldl_map]
  rfl

theorem isSome_digit?_of_mapM {digits : List ℕ} (h : s.mapM digit? = some digits) :
    ∀ c ∈ s, (digit? c).isSome = true := by
  induction s generalizing digits with
  | nil => simp
  | cons c s ih =>
    simp only [List.mapM_cons, Option.bind_eq_bind, Option.bind_eq_some_iff] at h
    obtain ⟨d, hd, rest, hrest, -⟩ := h
    exact List.forall_mem_cons.mpr ⟨by rw [hd]; rfl, ih hrest⟩

/-- What is read as a number is nothing but digits. -/
theorem isSome_digit?_of_natural? {n : ℕ} (h : natural? s = some n) :
    ∀ c ∈ s, (digit? c).isSome = true := by
  obtain ⟨-, h⟩ := Option.ite_none_left_eq_some.mp h
  obtain ⟨digits, hdigits, -⟩ := Option.map_eq_some_iff.mp h
  exact isSome_digit?_of_mapM hdigits

/-- Digits are a numeral without a sign. -/
theorem integer?_of_natural? {n : ℕ} (h : natural? s = some n) : integer? s = some (n : ℤ) := by
  have hdigits := isSome_digit?_of_natural? h
  fun_cases integer? s
  · exact absurd (hdigits '-' (List.mem_cons_self ..)) (by decide)
  · exact absurd (hdigits '+' (List.mem_cons_self ..)) (by decide)
  · rw [h, Option.map_some]

/-- Whether a character can be in a numeral. -/
def isNumeric (c : Char) : Bool := c = '-' || c = '+' || (digit? c).isSome

/-- What is read as a numeral is a sign and digits. -/
theorem isNumeric_of_integer? {i : ℤ} (h : integer? s = some i) :
    ∀ c ∈ s, isNumeric c = true := by
  have hdigits {t : List Char} {f : ℕ → ℤ} (ht : (natural? t).map f = some i) :
      ∀ c ∈ t, isNumeric c = true := by
    obtain ⟨n, hn, -⟩ := Option.map_eq_some_iff.mp ht
    intro c hc
    rw [isNumeric, isSome_digit?_of_natural? hn c hc, Bool.or_true]
  fun_cases integer? s with
  | case1 t => exact List.forall_mem_cons.mpr ⟨rfl, hdigits h⟩
  | case2 t => exact List.forall_mem_cons.mpr ⟨rfl, hdigits h⟩
  | case3 s hminus hplus =>
    rw [integer?] at h
    · exact hdigits h
    · exact hminus
    · exact hplus

theorem integer?_nil : integer? [] = none := rfl

end Digits

/-! ### Writing -/

/-- `String.valueOf`, for an `int` or a `long`. -/
def integerText (i : ℤ) : List Char :=
  if i < 0 then '-' :: Nat.toDigits 10 i.natAbs else Nat.toDigits 10 i.natAbs

/-- The numeral of `n` with zeros on the left, up to the width `w`. -/
def padded (n w : ℕ) : List Char := (Nat.toDigits 10 n).leftpad w '0'

section Writing

variable {n w : ℕ}

theorem isDigit_of_mem_padded : ∀ c ∈ padded n w, c.isDigit = true := by
  intro c hc
  obtain hc | hc := List.mem_append.mp hc
  · rw [List.eq_of_mem_replicate hc]
    rfl
  · exact Nat.isDigit_of_mem_toDigits (by decide) (by decide) hc

theorem padded_ne_nil : padded n w ≠ [] :=
  List.append_ne_nil_of_right_ne_nil _ Nat.toDigits_ne_nil

theorem length_padded : (padded n w).length = max w (Nat.toDigits 10 n).length :=
  List.length_leftpad

/-- **A padded numeral is read**, whatever its width. -/
theorem natural?_padded : natural? (padded n w) = some n := by
  rw [natural?_of_isDigit padded_ne_nil isDigit_of_mem_padded, padded, List.leftpad,
    Nat.ofDigitChars_append, Nat.ofDigitChars_replicate_zero, Nat.mul_zero,
    Nat.ofDigitChars_ten_toDigits]

theorem natural?_toDigits : natural? (Nat.toDigits 10 n) = some n := by
  have hdigits : ∀ c ∈ Nat.toDigits 10 n, c.isDigit = true := fun c hc =>
    Nat.isDigit_of_mem_toDigits (by decide) (by decide) hc
  rw [natural?_of_isDigit Nat.toDigits_ne_nil hdigits, Nat.ofDigitChars_ten_toDigits]

/-- **A number that is written is read back.** -/
theorem integer?_integerText (i : ℤ) : integer? (integerText i) = some i := by
  rw [integerText]
  split
  · rw [integer?, natural?_toDigits, Option.map_some]
    congr 1
    omega
  · rw [integer?_of_natural? natural?_toDigits]
    congr 1
    omega

end Writing

end Shabdiz
