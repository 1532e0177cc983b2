import Shabdiz.Text.Numeral
import Shabdiz.Text.Split
import Shabdiz.Util.Loops

/-!
# Host patterns

`Patterns.resolveHostPattern` turns a pattern into host addresses. There are two forms of patterns:
two addresses separated by `" - "` that differ in a number at the end, and a dotted quad with a
star in the place of its last number. What has neither form is a host itself.

The loop over the numbers of a range counts in an `int`, and need not end; `fuel` bounds the number
of times it is gone through, and `none` stands for a loop that has not ended by then.

## Main definitions

* `Patterns.tryArbitraryRange`, `Patterns.tryDottedQuad`, `Patterns.resolveHostPattern` — the code
* `Patterns.Resolves` — the hosts that a pattern is resolved to

## Main results

* `Patterns.addHosts_eq`, `Patterns.addHosts_maxValue` — when the loop ends, and what it adds
* `Patterns.validWildCardedDottedQuadFormat_iff` — what is taken for a dotted quad
-/

namespace Shabdiz

namespace Patterns

/-! ### The code -/

/-- What separates the two addresses of a range. -/
def separator : List Char := " - ".toList

/-- The greatest value of a byte. -/
def maxByteValue : ℕ := 255

/-- The characters at the beginning in which two texts agree. -/
def commonStart : List Char → List Char → List Char
  | c :: s, d :: t => if c = d then c :: commonStart s t else []
  | _, _ => []

/-- The common start of two texts, without the digits that it ends with. -/
def getCommonNonNumericPrefix (s1 s2 : List Char) : List Char :=
  (commonStart s1 s2).rdropWhile Char.isDigit

/-- The number with zeros before it, up to a length. -/
def padWithLeadingZeros (index : Int32) (length : ℕ) : List Char :=
  (integerText index.toInt).leftpad length '0'

/-- The last index that the loop is to add. -/
def rangeEnd (startIndex endIndex rangeLimit : Int32) : Int32 :=
  min endIndex (max (startIndex + rangeLimit - 1) rangeLimit)

/-- The loop over the indexes of a range. -/
def addHosts (host : Int32 → List Char) (stop : Int32) :
    (fuel : ℕ) → Int32 → List (List Char) → Option (List (List Char))
  | 0, _, _ => none
  | fuel + 1, index, hosts =>
    if index ≤ stop then addHosts host stop fuel (index + 1) (hosts ++ [host index])
    else some hosts

/-- The hosts from one suffix to the other, no more than the limit allows for. -/
def addHostsInRange (fuel : ℕ) (pre suffix1 suffix2 : List Char) (rangeLimit : Int32) :
    Option (List (List Char)) :=
  match Integer.parseInt suffix1, Integer.parseInt suffix2 with
  | some startIndex, some endIndex =>
    if 0 ≤ startIndex then
      addHosts (fun index => pre ++ padWithLeadingZeros index suffix1.length)
        (rangeEnd startIndex endIndex rangeLimit) fuel startIndex []
    else some []
  | _, _ => some []

/-- The hosts of a range; none if the pattern is not one. -/
def tryArbitraryRange (fuel : ℕ) (hostPattern : List Char) (rangeLimit : Int32) :
    Option (List (List Char)) :=
  match splitText separator hostPattern with
  | [address1, address2] =>
    let pre := getCommonNonNumericPrefix address1 address2
    addHostsInRange fuel pre (address1.drop pre.length) (address2.drop pre.length) rangeLimit
  | _ => some []

/-- The text is a number from zero to a maximum. -/
def isPositiveInt (s : List Char) (max : ℕ) : Bool :=
  (Integer.parseInt s).any fun value => 0 ≤ value.toInt && value.toInt ≤ (max : ℤ)

/-- The text is the value of a byte. -/
def isValidQuadValue (quad : List Char) : Bool := isPositiveInt quad maxByteValue

/-- Three bytes and an asterisk, with dots between them. -/
def validWildCardedDottedQuadFormat (hostPattern : List Char) : Bool :=
  match splitFields '.' hostPattern with
  | [quad1, quad2, quad3, quad4] =>
    isValidQuadValue quad1 && isValidQuadValue quad2 && isValidQuadValue quad3 && quad4 = ['*']
  | _ => false

/-- The addresses of a pattern whose last byte is an asterisk; none if it is not one. -/
def tryDottedQuad (hostPattern : List Char) : List (List Char) :=
  if validWildCardedDottedQuadFormat hostPattern then
    (List.range (maxByteValue + 1)).map fun index : ℕ => hostPattern.dropLast ++ integerText index
  else []

/-- The hosts of a pattern, which may be a range, a wild card or one host. -/
def resolveHostPattern (fuel : ℕ) (hostPattern : List Char) (rangeLimit : Int32) :
    Option (List (List Char)) := do
  let inRange ← tryArbitraryRange fuel hostPattern rangeLimit
  let hosts := if inRange.isEmpty then tryDottedQuad hostPattern else inRange
  pure (if hosts.isEmpty then [hostPattern] else hosts)

/-- The pattern is resolved, to these hosts: the loop ends after some number of passes. -/
def Resolves (hostPattern : List Char) (rangeLimit : Int32) (hosts : List (List Char)) : Prop :=
  ∃ fuel, resolveHostPattern fuel hostPattern rangeLimit = some hosts

/-! ### The loop -/

section Loop

variable {host : Int32 → List Char} {stop index : Int32} {hosts : List (List Char)} {fuel n : ℕ}

/-- **The loop ends**, if the last index is not the largest `int`: it goes through the numbers from
the first index to the last. -/
theorem addHosts_eq (hstop : stop.toInt < 2 ^ 31 - 1)
    (hn : n = (stop.toInt + 1 - index.toInt).toNat) :
    addHosts host stop fuel index hosts =
      if n < fuel then
        some (hosts ++ (List.range n).map fun k : ℕ => host (.ofInt (index.toInt + k)))
      else none := by
  induction n generalizing fuel index hosts with
  | zero =>
    have hnot : ¬ index ≤ stop := by
      rw [Int32.le_iff_toInt_le]
      omega
    cases fuel <;> simp [addHosts, hnot]
  | succ n ih =>
    have hle : index ≤ stop := by
      rw [Int32.le_iff_toInt_le]
      omega
    have hnext : (index + 1).toInt = index.toInt + 1 := toInt_add_one (by omega)
    have hrest : n = (stop.toInt + 1 - (index + 1).toInt).toNat := by omega
    have hcons : (List.range (n + 1)).map (fun k : ℕ => host (.ofInt (index.toInt + k))) =
        host index :: (List.range n).map fun k : ℕ => host (.ofInt (index.toInt + 1 + k)) := by
      rw [List.range_succ_eq_map, List.map_cons, List.map_map]
      congr 1
      · simp
      · refine List.map_congr_left fun k _ => ?_
        rw [Function.comp_apply]
        congr 2
        omega
    cases fuel with
    | zero => rfl
    | succ fuel =>
      rw [addHosts, if_pos hle, ih hrest, hnext, hcons, List.append_assoc, List.singleton_append]
      simp only [Nat.add_lt_add_iff_right]

/-- **The loop does not end** if its last index is the largest `int`. -/
theorem addHosts_maxValue (hstop : stop.toInt = 2 ^ 31 - 1) :
    addHosts host stop fuel index hosts = none := by
  induction fuel generalizing index hosts with
  | zero => rfl
  | succ fuel ih =>
    have hle : index ≤ stop := by
      have := index.toInt_lt
      rw [Int32.le_iff_toInt_le]
      omega
    rw [addHosts, if_pos hle, ih]

end Loop

/-! ### Dotted quads -/

section DottedQuad

variable {quad s : List Char} {quads : List (List Char)} {k : ℕ}

theorem isPositiveInt_iff {max : ℕ} (hmax : (max : ℤ) < 2 ^ 31) :
    isPositiveInt s max = true ↔ ∃ i, integer? s = some i ∧ 0 ≤ i ∧ i ≤ max := by
  simp only [isPositiveInt, Option.any_eq_true, Bool.and_eq_true, decide_eq_true_eq,
    Integer.parseInt_eq_some_iff]
  constructor
  · rintro ⟨value, hvalue, hrange⟩
    exact ⟨value.toInt, hvalue, hrange⟩
  · rintro ⟨i, hi, hrange⟩
    have htoInt : (Int32.ofInt i).toInt = i := Int32.toInt_ofInt_of_le (by omega) (by omega)
    exact ⟨.ofInt i, by rw [htoInt, hi], by rwa [htoInt]⟩

/-- What is in a quad is a sign or a digit. -/
theorem isNumeric_of_isValidQuadValue (h : isValidQuadValue quad = true) :
    ∀ c ∈ quad, isNumeric c = true := by
  obtain ⟨i, hi, -⟩ := (isPositiveInt_iff (by decide)).mp h
  exact isNumeric_of_integer? hi

/-- Quads have no dots, so they are the fields between the dots. -/
theorem splitFields_quads (h : ∀ quad ∈ quads, isValidQuadValue quad = true) :
    splitFields '.' (terminated '.' quads ++ '*' :: List.replicate k '.') = quads ++ [['*']] := by
  refine (splitFields_eq_concat_iff (by simp)).mpr ⟨⟨k, ?_⟩, fun f hf hdot => ?_⟩
  · rw [intercalate_concat, List.append_assoc, List.singleton_append]
  · rcases List.mem_append.mp hf with hf | hf
    · exact absurd (isNumeric_of_isValidQuadValue (h f hf) '.' hdot) (by decide)
    · rw [List.mem_singleton.mp hf] at hdot
      exact absurd hdot (by decide)

/-- **What is taken for a dotted quad**: three quads and a star, and then any number of dots. -/
theorem validWildCardedDottedQuadFormat_iff :
    validWildCardedDottedQuadFormat s = true ↔
      ∃ quads k, quads.length = 3 ∧ (∀ quad ∈ quads, isValidQuadValue quad = true) ∧
        s = terminated '.' quads ++ '*' :: List.replicate k '.' := by
  constructor
  · intro h
    rw [validWildCardedDottedQuadFormat] at h
    split at h
    · next quad1 quad2 quad3 quad4 hfields =>
      simp only [Bool.and_eq_true, decide_eq_true_eq] at h
      obtain ⟨⟨⟨h1, h2⟩, h3⟩, rfl⟩ := h
      have hconcat : splitFields '.' s = [quad1, quad2, quad3] ++ [['*']] := hfields
      obtain ⟨⟨k, hk⟩, -⟩ := (splitFields_eq_concat_iff (by simp)).mp hconcat
      refine ⟨[quad1, quad2, quad3], k, rfl, by simp [h1, h2, h3], ?_⟩
      rw [hk, intercalate_concat, List.append_assoc, List.singleton_append]
    · exact absurd h (by decide)
  · rintro ⟨quads, k, hlength, hquads, hs⟩
    obtain ⟨quad1, quad2, quad3, rfl⟩ := List.length_eq_three.mp hlength
    rw [validWildCardedDottedQuadFormat, hs, splitFields_quads hquads]
    simp only [List.forall_mem_cons] at hquads
    simp [hquads]

/-- No character of a dotted quad is a blank. -/
theorem notMem_of_validWildCardedDottedQuadFormat
    (h : validWildCardedDottedQuadFormat s = true) : ' ' ∉ s := by
  obtain ⟨quads, k, -, hquads, rfl⟩ := validWildCardedDottedQuadFormat_iff.mp h
  intro hblank
  obtain hblank | hblank := List.mem_append.mp hblank
  · obtain ⟨quad, hquad, hblank⟩ := List.mem_flatMap.mp hblank
    obtain hblank | hblank := List.mem_append.mp hblank
    · exact absurd (isNumeric_of_isValidQuadValue (hquads quad hquad) ' ' hblank) (by decide)
    · exact absurd (List.mem_singleton.mp hblank) (by decide)
  · obtain hblank | hblank := List.mem_cons.mp hblank
    · exact absurd hblank (by decide)
    · exact absurd (List.eq_of_mem_replicate hblank) (by decide)

end DottedQuad

end Patterns

end Shabdiz
