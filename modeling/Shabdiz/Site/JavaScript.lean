import Mathlib.Order.Defs.LinearOrder
import Shabdiz.Text.Fields
import Shabdiz.Text.Numeral

/-!
# Strings and numbers of JavaScript

A string is a list of code units of sixteen bits. `trim` and `parseInt` are the standard functions.

Of the numbers only the safe integers are told apart here; `Numbers` has what is needed of the
others, which come up when a numeral is none or stands for too large an integer. The two zeros are
one.

## Main definitions

* `JSString`, `codeUnits`, `trim` — strings
* `JSNumber`, `Numbers`, `SafeNatural` — numbers
* `parseInt`, `Numbers.toText` — reading and writing an integer

## Main results

* `parseInt_decimal` — what is written is read
-/

namespace Shabdiz

/-! ### Strings -/

/-- A string of the language: its UTF-16 code units. -/
abbrev JSString := List UInt16

instance linearOrderUInt16 : LinearOrder UInt16 where
  le_refl := UInt16.le_refl
  le_trans _ _ _ := UInt16.le_trans
  lt_iff_le_not_ge _ _ := by
    rw [UInt16.not_le]
    exact ⟨fun h => ⟨UInt16.le_of_lt h, h⟩, And.right⟩
  le_antisymm _ _ := UInt16.le_antisymm
  le_total := UInt16.le_total
  toDecidableLE := inferInstance
  compare_eq_compareOfLessAndEq _ _ := rfl

/-- The code unit of a character of the basic plane. -/
def codeUnit (c : Char) : UInt16 := c.toNat.toUInt16

/-- A literal without characters beyond the basic plane. -/
def codeUnits (s : String) : JSString := s.toList.map codeUnit

/-- `WhiteSpace` and `LineTerminator`. -/
def whiteSpace : List UInt16 :=
  [0x0009, 0x000A, 0x000B, 0x000C, 0x000D, 0x0020, 0x00A0, 0x1680, 0x2000, 0x2001, 0x2002, 0x2003,
    0x2004, 0x2005, 0x2006, 0x2007, 0x2008, 0x2009, 0x200A, 0x2028, 0x2029, 0x202F, 0x205F, 0x3000,
    0xFEFF]

/-- White space, as `trim` and `parseInt` skip it. -/
def isWhiteSpace (c : UInt16) : Bool := c ∈ whiteSpace

/-- `String.prototype.trim`. -/
def trimWhiteSpace (s : JSString) : JSString := trim isWhiteSpace s

/-! ### Numbers -/

/-- A safe integer, or one of the other numbers. -/
inductive JSNumber (Ω : Type) where
  | safe (i : {i : ℤ // i.natAbs < 2 ^ 53})
  | other (x : Ω)
deriving DecidableEq

/-- What is needed of the other numbers: the one that is none, the one an integer is rounded to
that is not safe, and how they are written. -/
structure Numbers (Ω : Type) where
  nan : Ω
  round : ℤ → Ω
  text : Ω → JSString

/-- A natural number that a double holds exactly. -/
abbrev SafeNatural := {n : ℕ // n < 2 ^ 53}

variable {Ω : Type}

/-- The number of a safe natural number. -/
def JSNumber.ofNatural (n : SafeNatural) : JSNumber Ω := .safe ⟨n.1, n.2⟩

/-- The value of a digit, or of a letter that is one in a larger radix. -/
def digitValue (c : UInt16) : Option ℕ :=
  if 48 ≤ c.toNat ∧ c.toNat ≤ 57 then some (c.toNat - 48)
  else if 65 ≤ c.toNat ∧ c.toNat ≤ 90 then some (c.toNat - 55)
  else if 97 ≤ c.toNat ∧ c.toNat ≤ 122 then some (c.toNat - 87)
  else none

/-- Whether there is a minus, and what follows the sign. -/
def stripSign : JSString → Bool × JSString
  | [] => (false, [])
  | c :: s =>
    if c = codeUnit '-' then (true, s) else if c = codeUnit '+' then (false, s) else (false, c :: s)

/-- The radix, and what follows its prefix. -/
def stripRadix : JSString → ℕ × JSString
  | z :: x :: s =>
    if z = codeUnit '0' ∧ (x = codeUnit 'x' ∨ x = codeUnit 'X') then (16, s) else (10, z :: x :: s)
  | s => (10, s)

/-- The values of the digits that a string begins with. -/
def leadingDigits (radix : ℕ) : JSString → List ℕ
  | [] => []
  | c :: s =>
    match digitValue c with
    | some d => if d < radix then d :: leadingDigits radix s else []
    | none => []

namespace Numbers

variable (numbers : Numbers Ω)

/-- The number of an integer, rounded if it is not safe. -/
def ofInt (i : ℤ) : JSNumber Ω :=
  if h : i.natAbs < 2 ^ 53 then .safe ⟨i, h⟩ else .other (numbers.round i)

/-- `parseInt`, with a single argument. -/
def parseInt (s : JSString) : JSNumber Ω :=
  let (negative, s) := stripSign (s.dropWhile isWhiteSpace)
  let (radix, s) := stripRadix s
  let digits := leadingDigits radix s
  if digits = [] then .other numbers.nan
  else
    let n := digits.foldl (fun n d => radix * n + d) 0
    numbers.ofInt (if negative then -n else n)

/-- How a number is written. -/
def toText : JSNumber Ω → JSString
  | .safe i => (integerText i.1).map codeUnit
  | .other x => numbers.text x

end Numbers

/-! ### Decimal digits -/

/-- The digits of a natural number. -/
def decimal (n : ℕ) : JSString := (Nat.toDigits 10 n).map codeUnit

theorem Numbers.toText_ofNatural (numbers : Numbers Ω) (n : SafeNatural) :
    numbers.toText (.ofNatural n) = decimal n := by
  have htext : integerText (n : ℕ) = Nat.toDigits 10 n := by
    rw [integerText, if_neg (by simp), Int.natAbs_natCast]
  exact congrArg (List.map codeUnit) htext

section Decimal

variable {c : UInt16} {s : JSString} {n : ℕ}

/-- A digit from 0 to 9. -/
def IsDecimalDigit (c : UInt16) : Prop := 48 ≤ c.toNat ∧ c.toNat ≤ 57

theorem decimal_ne_nil : decimal n ≠ [] :=
  fun h => Nat.toDigits_ne_nil (List.map_eq_nil_iff.mp h)

theorem toNat_codeUnit {d : Char} (h : d.isDigit = true) : (codeUnit d).toNat = d.toNat := by
  have hrange := isDigit_iff.mp h
  rw [codeUnit, UInt16.toNat_ofNat']
  exact Nat.mod_eq_of_lt (by omega)

theorem isDigit_of_mem_toDigits {d : Char} (h : d ∈ Nat.toDigits 10 n) : d.isDigit = true :=
  Nat.isDigit_of_mem_toDigits (by decide) (by decide) h

theorem isDecimalDigit_of_mem_decimal : ∀ c ∈ decimal n, IsDecimalDigit c := by
  intro c hc
  obtain ⟨d, hd, rfl⟩ := List.mem_map.mp hc
  rw [IsDecimalDigit, toNat_codeUnit (isDigit_of_mem_toDigits hd)]
  exact isDigit_iff.mp (isDigit_of_mem_toDigits hd)

theorem IsDecimalDigit.ne (h : IsDecimalDigit c) {d : UInt16} (hd : d.toNat < 48 ∨ 57 < d.toNat) :
    c ≠ d := by
  rintro rfl
  obtain ⟨hl, hr⟩ := h
  omega

theorem IsDecimalDigit.isWhiteSpace_eq_false (h : IsDecimalDigit c) : isWhiteSpace c = false := by
  have hspace : ∀ d ∈ whiteSpace, d.toNat < 48 ∨ 57 < d.toNat := by simp [whiteSpace]
  exact decide_eq_false fun hmem => h.ne (hspace c hmem) rfl

/-- What the digits of a numeral stand for. -/
theorem leadingDigits_eq (h : ∀ c ∈ s, IsDecimalDigit c) :
    leadingDigits 10 s = s.map fun c => c.toNat - 48 := by
  induction s with
  | nil => rfl
  | cons c s ih =>
    obtain ⟨hc, hs⟩ := List.forall_mem_cons.mp h
    have hvalue : digitValue c = some (c.toNat - 48) := if_pos hc
    have hlt : c.toNat - 48 < 10 := by
      obtain ⟨hl, hr⟩ := hc
      omega
    rw [leadingDigits, hvalue]
    simp only [if_pos hlt]
    rw [ih hs, List.map_cons]

theorem foldl_decimal :
    ((decimal n).map fun c => c.toNat - 48).foldl (fun n d => 10 * n + d) 0 = n := by
  have hmap : (decimal n).map (fun c => c.toNat - 48) =
      (Nat.toDigits 10 n).map fun d => d.toNat - 48 := by
    rw [decimal, List.map_map]
    refine List.map_congr_left fun d hd => ?_
    rw [Function.comp_apply, toNat_codeUnit (isDigit_of_mem_toDigits hd)]
  rw [hmap, List.foldl_map]
  exact Nat.ofDigitChars_ten_toDigits

/-- **What is written is read.** -/
theorem Numbers.parseInt_decimal (numbers : Numbers Ω) (n : SafeNatural) :
    numbers.parseInt (decimal n) = .ofNatural n := by
  have hdigits := isDecimalDigit_of_mem_decimal (n := n)
  obtain ⟨c, s, hs⟩ := List.exists_cons_of_ne_nil (decimal_ne_nil (n := n))
  have hc : IsDecimalDigit c := hdigits c (hs ▸ List.mem_cons_self)
  have hspace : (decimal n).dropWhile isWhiteSpace = decimal n := by
    rw [hs, List.dropWhile_cons_of_neg (by rw [hc.isWhiteSpace_eq_false]; decide)]
  have hsign : stripSign (decimal n) = (false, decimal n) := by
    rw [hs, stripSign, if_neg (hc.ne (by decide)), if_neg (hc.ne (by decide))]
  have hradix : stripRadix (decimal n) = (10, decimal n) := by
    rw [hs]
    cases s with
    | nil => rfl
    | cons x s =>
      have hx : IsDecimalDigit x := hdigits x (by rw [hs]; simp)
      rw [stripRadix, if_neg]
      rintro ⟨-, h | h⟩
      · exact hx.ne (by decide) h
      · exact hx.ne (by decide) h
  rw [parseInt, hspace, hsign]
  simp only [hradix]
  rw [leadingDigits_eq hdigits, if_neg (by simpa using decimal_ne_nil), foldl_decimal]
  exact dif_pos n.2

end Decimal

end Shabdiz
