import Mathlib.Data.List.Lex
import Mathlib.Data.Prod.Lex
import Shabdiz.Site.JavaScript
import Shabdiz.Text.ChunkOrder

/-!
# The order of the legends

The elements of an array are sorted by a property. Its values are cut into chunks, of digits and
dots and of other characters, and compared chunk by chunk; before that `Heavy`, `Medium` and `Light`
are given a digit that puts them in this order.

For the second operand the test for `Light` is made of the element instead of its property, so that
it never succeeds: `Light` is then compared as it stands, and it comes before itself.

## Main definitions

* `toNumber` — `Number` of a chunk
* `chunkify`, `alphanum` — cutting and comparing texts
* `comparator` — the function that the array is sorted with
* `ConsistentOrder` — what is expected of it on the elements of an array

## Main results

* `isChunk_of_mem_chunkify` — what the chunks are
* `consistentOrder_iff` — the arrays for which it is as expected
-/

namespace Shabdiz

/-! ### Numbers -/

/-- A number other than the one that is none. The finite ones are not negative here and count the
smallest positive number, `2⁻¹⁰⁷⁴`. -/
inductive Magnitude where
  | negativeInfinity
  | finite (count : ℕ)
  | infinity
deriving DecidableEq

namespace Magnitude

/-- The rank of a magnitude among the infinities. -/
def key : Magnitude → ℕ ×ₗ ℕ
  | negativeInfinity => toLex (0, 0)
  | finite count => toLex (1, count)
  | infinity => toLex (2, 0)

theorem key_injective : Function.Injective key := by
  intro c d h
  cases c <;> cases d <;> simp_all [key]

instance : LinearOrder Magnitude := LinearOrder.lift' key key_injective

/-- The number is infinite. -/
def isInfinite : Magnitude → Bool
  | finite _ => false
  | _ => true

end Magnitude

/-- The integer closest to a fraction, the even one of two. -/
def roundHalfEven (n d : ℕ) : ℕ :=
  let q := n / d
  let r := n % d
  if 2 * r < d ∨ 2 * r = d ∧ q % 2 = 0 then q else q + 1

/-- The number that a fraction is rounded to: of its binary digits fifty-three are kept, and none
after the last place there is. -/
def roundToNumber (n d : ℕ) : Magnitude :=
  let spacing := 2 ^ (Nat.log2 (n * 2 ^ 1074 / d) - 52)
  let count := roundHalfEven (n * 2 ^ 1074) (d * spacing) * spacing
  if count < 2 ^ 2098 then .finite count else .infinity

/-- The code unit of the dot. -/
def dotUnit : UInt16 := codeUnit '.'

instance (c : UInt16) : Decidable (IsDecimalDigit c) := inferInstanceAs (Decidable (_ ∧ _))

/-- Digits with at most one dot among them. -/
def readDecimal (s : JSString) : Option Magnitude :=
  let whole := s.takeWhile (· ≠ dotUnit)
  let fraction := (s.dropWhile (· ≠ dotUnit)).tail
  let digits := whole ++ fraction
  if digits ≠ [] ∧ digits.all (IsDecimalDigit ·) then
    let value := digits.foldl (fun n c => 10 * n + (c.toNat - 48)) 0
    some (roundToNumber value (10 ^ fraction.length))
  else none

/-- `Number`, of a text that either consists of digits and dots or has none of them; other numerals
need a digit. `none` is the number that is none. -/
def toNumber (s : JSString) : Option Magnitude :=
  let s := trimWhiteSpace s
  if s = [] then some (.finite 0)
  else if (stripSign s).2 = codeUnits "Infinity" then
    some (if (stripSign s).1 then .negativeInfinity else .infinity)
  else readDecimal s

/-- The sign of a difference; that of two infinities is no number. Two numbers that differ have a
difference other than zero. -/
def minus (c d : Magnitude) : Option Ordering :=
  if c = d ∧ c.isInfinite then none else some (compare c d)

/-! ### Chunks -/

/-- The test `m`. -/
def isNumberUnit (i : UInt16) : Bool := i == 46 || (48 ≤ i && i ≤ 57)

/-- The loop of `chunkify`. It stops at a character whose code is zero. -/
def chunkifyLoop (tz : List JSString) (n : Option Bool) : JSString → List JSString
  | [] => tz
  | j :: t =>
    if j = 0 then tz
    else
      let m := isNumberUnit j
      let tz := if some m ≠ n then tz ++ [[]] else tz
      chunkifyLoop (tz.modifyLast (· ++ [j])) (some m) t

/-- In the beginning `n` is none of the two values of `m`. -/
def chunkify (t : JSString) : List JSString := chunkifyLoop [] none t

/-- The loop over the chunks, from an index on. -/
def compareFrom : List JSString → List JSString → Option Ordering
  | a :: aa, b :: bb =>
    if a ≠ [] ∧ b ≠ [] then
      if a ≠ b then
        match toNumber a, toNumber b with
        | some c, some d => minus c d
        | _, _ => some (if a > b then .gt else .lt)
      else compareFrom aa bb
    else some (compare (a :: aa).length (b :: bb).length)
  | aa, bb => some (compare aa.length bb.length)

/-- The sign of what `alphanum` returns, if it is a number. -/
def alphanum (a b : JSString) : Option Ordering := compareFrom (chunkify a) (chunkify b)

/-! ### The comparator -/

/-- An element of the array, with the property that it is sorted by. -/
structure Element where
  property : JSString
deriving DecidableEq

/-- What an object is compared with a string as. -/
def Element.primitive (_ : Element) : JSString := codeUnits "[object Object]"

/-- The special word that is sorted first. -/
def heavy : JSString := codeUnits "Heavy"

/-- The special word between the two. -/
def medium : JSString := codeUnits "Medium"

/-- The special word that is sorted last. -/
def light : JSString := codeUnits "Light"

/-- The value of `onep` that is compared. -/
def firstOperand (one : Element) : JSString :=
  let onep := one.property
  if onep = heavy then codeUnits "0" ++ onep
  else if onep = medium then codeUnits "1" ++ onep
  else if onep = light then codeUnits "2" ++ onep
  else onep

/-- The value of `otherp` that is compared. -/
def secondOperand (other : Element) : JSString :=
  let otherp := other.property
  if otherp = heavy then codeUnits "0" ++ otherp
  else if otherp = medium then codeUnits "1" ++ otherp
  -- The test is of `other`, not of `otherp`.
  else if other.primitive = light then codeUnits "2" ++ otherp
  else otherp

/-- The function given to `sort`, which takes for zero what is no number. -/
def comparator (one other : Element) : Ordering :=
  (alphanum (firstOperand one) (secondOperand other)).getD .eq

/-- The words that have an order of their own, in this order. -/
def specialWords : List JSString := [heavy, medium, light]

/-- A total preorder on the elements of an array, with the special words in their order. -/
structure ConsistentOrder (elements : List Element) : Prop where
  equal : ∀ one ∈ elements, ∀ other ∈ elements, one.property = other.property →
    comparator one other = .eq
  swap : ∀ one ∈ elements, ∀ other ∈ elements, comparator other one = (comparator one other).swap
  trans : ∀ one ∈ elements, ∀ other ∈ elements, ∀ third ∈ elements,
    comparator one other ≠ .gt → comparator other third ≠ .gt → comparator one third ≠ .gt
  words : ∀ one ∈ elements, ∀ other ∈ elements, ∀ i j : Fin specialWords.length,
    one.property = specialWords.get i → other.property = specialWords.get j →
      comparator one other = compare i.val j.val

/-- The chunks that an element is compared by. -/
def Element.chunks (element : Element) : List JSString := chunkify (firstOperand element)

variable {a b chunk t : JSString} {aa bb tz : List JSString} {n : Option Bool}
variable {one other : Element} {elements : List Element}

/-! ### What the chunks are -/

/-- Some characters that are all digits and dots, or none of which is. -/
def IsChunk (chunk : JSString) : Prop := chunk ≠ [] ∧ ∃ m, ∀ c ∈ chunk, isNumberUnit c = m

/-- The chunks at a round of the loop: the last is one of characters with the test `n`. -/
inductive Chunked : List JSString → Option Bool → Prop
  | start : Chunked [] none
  | within (tz : List JSString) {last : JSString} {m : Bool} (htz : ∀ chunk ∈ tz, IsChunk chunk)
      (hne : last ≠ []) (hlast : ∀ c ∈ last, isNumberUnit c = m) : Chunked (tz ++ [last]) (some m)

theorem Chunked.isChunk (h : Chunked tz n) : ∀ chunk ∈ tz, IsChunk chunk := by
  cases h with
  | start => simp
  | within tz htz hne hlast =>
    intro chunk hchunk
    rcases List.mem_append.mp hchunk with hchunk | hchunk
    · exact htz chunk hchunk
    · rw [List.mem_singleton.mp hchunk]
      exact ⟨hne, _, hlast⟩

theorem Chunked.step (h : Chunked tz n) (j : UInt16) :
    Chunked ((if some (isNumberUnit j) ≠ n then tz ++ [[]] else tz).modifyLast (· ++ [j]))
      (some (isNumberUnit j)) := by
  split
  · rw [List.modifyLast_concat]
    exact .within tz h.isChunk (by simp) (by simp)
  · next heq =>
    obtain _ | ⟨tz, htz, hne, hlast⟩ := h
    · exact absurd (not_not.mp heq) (Option.some_ne_none _)
    · rw [List.modifyLast_concat]
      refine .within tz htz (by simp) fun c hc => ?_
      rcases List.mem_append.mp hc with hc | hc
      · rw [hlast c hc]
        exact (Option.some_inj.mp (not_not.mp heq)).symm
      · rw [List.mem_singleton.mp hc]

theorem isChunk_of_mem_chunkifyLoop (h : Chunked tz n) :
    ∀ chunk ∈ chunkifyLoop tz n t, IsChunk chunk := by
  induction t generalizing tz n with
  | nil => exact h.isChunk
  | cons j t ih =>
    rw [chunkifyLoop]
    split
    · exact h.isChunk
    · exact ih (h.step j)

/-- **What the chunks are.** -/
theorem isChunk_of_mem_chunkify (h : chunk ∈ chunkify t) : IsChunk chunk :=
  isChunk_of_mem_chunkifyLoop .start chunk h

/-! ### The comparison -/

theorem getD_minus (c d : Magnitude) : (minus c d).getD .eq = compare c d := by
  rw [minus]
  split
  · next h => exact (compare_eq_iff_eq.mpr h.1).symm
  · rfl

theorem compare_of_ne {γ : Type} [LinearOrder γ] {x y : γ} [Decidable (x > y)] (h : x ≠ y) :
    (if x > y then .gt else .lt) = compare x y := by
  split
  · next hgt => exact (compare_gt_iff_gt.mpr hgt).symm
  · next hle => exact (compare_lt_iff_lt.mpr (lt_of_le_of_ne (not_lt.mp hle) h)).symm

theorem getD_compareFrom (haa : ∀ a ∈ aa, a ≠ []) (hbb : ∀ b ∈ bb, b ≠ []) :
    (compareFrom aa bb).getD .eq = compareChunks toNumber aa bb := by
  induction aa generalizing bb with
  | nil =>
    cases bb with
    | nil => rfl
    | cons b bb => rfl
  | cons a aa ih =>
    obtain ⟨ha, htail⟩ := List.forall_mem_cons.mp haa
    cases bb with
    | nil => rfl
    | cons b bb =>
      obtain ⟨hb, htail'⟩ := List.forall_mem_cons.mp hbb
      rw [compareFrom, if_pos ⟨ha, hb⟩]
      by_cases hab : a = b
      · subst hab
        rw [if_neg (not_not.mpr rfl), compareChunks_cons_self]
        exact ih htail htail'
      · rw [if_pos hab, compareChunks_cons_of_ne hab]
        cases hc : toNumber a with
        | none =>
          rw [compareHeads_left hc]
          exact compare_of_ne hab
        | some c =>
          cases hd : toNumber b with
          | none =>
            rw [compareHeads_right hd]
            exact compare_of_ne hab
          | some d =>
            rw [compareHeads_numbers hc hd]
            exact getD_minus c d

theorem getD_alphanum :
    (alphanum a b).getD .eq = compareChunks toNumber (chunkify a) (chunkify b) :=
  getD_compareFrom (fun _ h => (isChunk_of_mem_chunkify h).1)
    (fun _ h => (isChunk_of_mem_chunkify h).1)

/-- Both operands are rewritten alike, unless the second is `Light`. -/
theorem secondOperand_eq (h : other.property ≠ light) :
    secondOperand other = firstOperand other := by
  have hprimitive : other.primitive ≠ light := by
    rw [Element.primitive]
    decide
  rw [secondOperand, firstOperand]
  simp only [if_neg h, if_neg hprimitive]

theorem comparator_eq (h : other.property ≠ light) :
    comparator one other = compareChunks toNumber one.chunks other.chunks := by
  rw [comparator, secondOperand_eq h, getD_alphanum, Element.chunks, Element.chunks]

/-- The special words are in their order whichever operand they are, but for `Light` and itself. -/
theorem comparator_specialWords : ∀ i j : Fin specialWords.length,
    ¬(i.val = 2 ∧ j.val = 2) →
    comparator ⟨specialWords.get i⟩ ⟨specialWords.get j⟩ = compare i.val j.val := by
  decide +kernel

theorem comparator_light : comparator ⟨light⟩ ⟨light⟩ = .lt := by decide +kernel

/-! ### The order -/

/-- **The arrays for which the order is consistent:** those without a `Light` whose chunks are
orderly. -/
theorem consistentOrder_iff (elements : List Element) :
    ConsistentOrder elements ↔ (∀ element ∈ elements, element.property ≠ light) ∧
      Orderly toNumber {chunks | ∃ element ∈ elements, element.chunks = chunks} := by
  constructor
  · intro h
    have hlight : ∀ element ∈ elements, element.property ≠ light := by
      rintro ⟨property⟩ hmem rfl
      exact absurd ((h.equal _ hmem _ hmem rfl).symm.trans comparator_light) (by decide)
    refine ⟨hlight, transitive_iff_orderly.mp ?_⟩
    rintro _ ⟨one, hone, rfl⟩ _ ⟨other, hother, rfl⟩ _ ⟨third, hthird, rfl⟩
    rw [← comparator_eq (hlight other hother), ← comparator_eq (hlight third hthird),
      ← comparator_eq (hlight third hthird)]
    exact h.trans one hone other hother third hthird
  · rintro ⟨hlight, horderly⟩
    constructor
    · rintro ⟨property⟩ hone ⟨_⟩ hother rfl
      rw [comparator_eq (hlight _ hother), compareChunks_self]
    · intro one hone other hother
      rw [comparator_eq (hlight one hone), comparator_eq (hlight other hother), compareChunks_swap]
    · intro one hone other hother third hthird
      rw [comparator_eq (hlight other hother), comparator_eq (hlight third hthird),
        comparator_eq (hlight third hthird)]
      exact horderly.trans ⟨one, hone, rfl⟩ ⟨other, hother, rfl⟩ ⟨third, hthird, rfl⟩
    · rintro ⟨onep⟩ hone ⟨otherp⟩ hother i j rfl rfl
      refine comparator_specialWords i j ?_
      rintro ⟨htwo, -⟩
      obtain rfl : i = ⟨2, by decide⟩ := Fin.ext htwo
      exact hlight _ hone rfl

example : ConsistentOrder
    [⟨heavy⟩, ⟨codeUnits "10 hrs"⟩, ⟨medium⟩, ⟨codeUnits "5 hrs"⟩, ⟨codeUnits "5.5 hrs"⟩] :=
  ⟨by decide +kernel, by decide +kernel, by decide +kernel, by decide +kernel⟩

/-- An array with `Light` twice, and one with two numbers and a version. -/
theorem not_consistentOrder_light :
    ¬ConsistentOrder [⟨light⟩, ⟨light⟩] ∧
      ¬ConsistentOrder [⟨codeUnits "9"⟩, ⟨codeUnits "10"⟩, ⟨codeUnits "5.5.5"⟩] := by
  constructor
  · intro h
    have heq := h.equal ⟨light⟩ (by simp) ⟨light⟩ (by simp) rfl
    exact absurd (heq.symm.trans comparator_light) (by decide)
  · intro h
    refine h.trans ⟨codeUnits "9"⟩ (by simp) ⟨codeUnits "10"⟩ (by simp) ⟨codeUnits "5.5.5"⟩
      (by simp) ?_ ?_ ?_
    · decide +kernel
    · decide +kernel
    · decide +kernel

end Shabdiz
