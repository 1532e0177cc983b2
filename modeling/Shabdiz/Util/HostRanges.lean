import Shabdiz.Util.Patterns

/-!
# Ranges of hosts

A pattern that is parsed as a range is resolved to the hosts with the numbers from the first of the
range to the index that the loop stops at. This index is computed with a limit on the number of
hosts, in arithmetic that wraps around.

## Main definitions

* `Patterns.HostRange`, `Patterns.parseRange` — a range, and how it is parsed
* `Patterns.HostRange.stop`, `Patterns.HostRange.hosts` — the index the loop stops at, and the hosts

## Main results

* `Patterns.resolves_iff_of_none`, `Patterns.resolves_iff_of_some` — what a pattern is resolved to
* `Patterns.HostRange.toInt_stop`, `Patterns.HostRange.toInt_stop_maxValue` — where the loop stops
* `Patterns.resolves_padded_iff` — ranges of numbers that are written to the same width
-/

namespace Shabdiz

namespace Patterns

/-- A range of hosts: what their addresses begin with, the first number and the last, and how many
characters the first number was written with. -/
structure HostRange where
  pre : List Char
  first : Int32
  last : Int32
  width : ℕ
  nonneg : 0 ≤ first.toInt
deriving DecidableEq

/-- The range from one suffix to the other, if they are numerals. -/
def parseSuffixes (pre suffix1 suffix2 : List Char) : Option HostRange :=
  match Integer.parseInt suffix1, Integer.parseInt suffix2 with
  | some first, some last =>
    if h : 0 ≤ first.toInt then some ⟨pre, first, last, suffix1.length, h⟩ else none
  | _, _ => none

/-- The range that a pattern stands for, if there is one. -/
def parseRange (hostPattern : List Char) : Option HostRange :=
  match splitText separator hostPattern with
  | [address1, address2] =>
    let pre := getCommonNonNumericPrefix address1 address2
    parseSuffixes pre (address1.drop pre.length) (address2.drop pre.length)
  | _ => none

/-- The index the loop stops at. -/
def HostRange.stop (r : HostRange) (rangeLimit : Int32) : Int32 :=
  rangeEnd r.first r.last rangeLimit

/-- How many hosts are added. -/
def HostRange.count (r : HostRange) (rangeLimit : Int32) : ℕ :=
  ((r.stop rangeLimit).toInt + 1 - r.first.toInt).toNat

/-- The first `n` hosts of a range. -/
def HostRange.hosts (r : HostRange) (n : ℕ) : List (List Char) :=
  (List.range' r.first.toInt.toNat n).map fun i => r.pre ++ padded i r.width

/-- What is returned for a pattern in which no range is found. -/
def hostsWithoutRange (hostPattern : List Char) : List (List Char) :=
  if validWildCardedDottedQuadFormat hostPattern then tryDottedQuad hostPattern else [hostPattern]

/-- The loop over the numbers of a range. -/
def HostRange.loop (r : HostRange) (fuel : ℕ) (rangeLimit : Int32) : Option (List (List Char)) :=
  addHosts (fun index => r.pre ++ padWithLeadingZeros index r.width) (r.stop rangeLimit) fuel
    r.first []

variable {hostPattern pre suffix1 suffix2 : List Char} {rangeLimit : Int32}
  {hosts : List (List Char)} {r : HostRange} {fuel n : ℕ}

/-! ### Parsing -/

theorem addHostsInRange_eq :
    addHostsInRange fuel pre suffix1 suffix2 rangeLimit =
      (parseSuffixes pre suffix1 suffix2).elim (some []) (·.loop fuel rangeLimit) := by
  rw [addHostsInRange, parseSuffixes]
  cases Integer.parseInt suffix1 with
  | none => rfl
  | some first =>
    cases Integer.parseInt suffix2 with
    | none => rfl
    | some last =>
      by_cases h : 0 ≤ first.toInt
      · have hpos : 0 ≤ first := Int32.le_iff_toInt_le.mpr h
        simp only [dif_pos h, if_pos hpos]
        rfl
      · have hneg : ¬ 0 ≤ first := fun hpos => h (Int32.le_iff_toInt_le.mp hpos)
        simp only [dif_neg h, if_neg hneg]
        rfl

theorem tryArbitraryRange_eq :
    tryArbitraryRange fuel hostPattern rangeLimit =
      (parseRange hostPattern).elim (some []) (·.loop fuel rangeLimit) := by
  rw [tryArbitraryRange, parseRange]
  rcases splitText separator hostPattern with _ | ⟨address1, _ | ⟨address2, _ | _⟩⟩
  · rfl
  · rfl
  · exact addHostsInRange_eq
  · rfl

theorem isPrefix_commonStart (s t : List Char) : commonStart s t <+: s := by
  induction s generalizing t with
  | nil => cases t <;> exact List.nil_prefix
  | cons c s ih =>
    cases t with
    | nil => exact List.nil_prefix
    | cons d t =>
      rw [commonStart]
      split
      · exact (List.prefix_cons_inj c).mpr (ih t)
      · exact List.nil_prefix

theorem pre_of_parseSuffixes (h : parseSuffixes pre suffix1 suffix2 = some r) : r.pre = pre := by
  rw [parseSuffixes] at h
  split at h
  · obtain ⟨_, h⟩ := Option.dite_none_right_eq_some.mp h
    rw [← Option.some.inj h]
  · exact absurd h (by simp)

theorem exists_addresses_of_parseRange (h : parseRange hostPattern = some r) :
    ∃ address1 address2, splitText separator hostPattern = [address1, address2] ∧
      r.pre <+: address1 := by
  rw [parseRange] at h
  split at h
  · next address1 address2 hsplit =>
    refine ⟨address1, address2, hsplit, ?_⟩
    rw [pre_of_parseSuffixes h]
    exact (List.rdropWhile_prefix _ _).trans (isPrefix_commonStart _ _)
  · exact absurd h (by simp)

/-- The separator is in the pattern, but not in what the addresses of its range begin with. -/
theorem separator_of_parseRange (h : parseRange hostPattern = some r) :
    separator <:+: hostPattern ∧ ¬ separator <:+: r.pre := by
  obtain ⟨address1, address2, hsplit, hpre⟩ := exists_addresses_of_parseRange h
  have haddress1 : ¬ separator <:+: address1 :=
    not_isInfix_of_mem_splitText (by decide) address1 (by rw [hsplit]; exact List.mem_cons_self ..)
  refine ⟨?_, fun hoccurs => haddress1 (hoccurs.trans hpre.isInfix)⟩
  by_contra hnot
  rw [splitText_of_not_isInfix hnot] at hsplit
  exact absurd (congrArg List.length hsplit) (by simp)

/-! ### The hosts of a range -/

theorem length_hosts : (r.hosts n).length = n := by
  rw [HostRange.hosts, List.length_map, List.length_range']

theorem padWithLeadingZeros_eq {i w : ℕ} (h : (i : ℤ) < 2 ^ 31) :
    padWithLeadingZeros (.ofInt i) w = padded i w := by
  rw [padWithLeadingZeros, Int32.toInt_ofInt_of_le (by omega) (by omega), integerText,
    if_neg (by omega)]
  rfl

theorem HostRange.loop_eq (h : (r.stop rangeLimit).toInt < 2 ^ 31 - 1) :
    r.loop fuel rangeLimit =
      if r.count rangeLimit < fuel then some (r.hosts (r.count rangeLimit)) else none := by
  have hhosts : (List.range (r.count rangeLimit)).map
      (fun k : ℕ => r.pre ++ padWithLeadingZeros (.ofInt (r.first.toInt + k)) r.width) =
        r.hosts (r.count rangeLimit) := by
    rw [hosts, List.range'_eq_map_range, List.map_map]
    refine List.map_congr_left fun k hk => ?_
    rw [List.mem_range, count] at hk
    have hnonneg := r.nonneg
    have hindex : r.first.toInt + k = (r.first.toInt.toNat + k : ℕ) := by omega
    rw [hindex, padWithLeadingZeros_eq (by omega), Function.comp_apply]
  rw [loop, addHosts_eq h rfl, List.nil_append]
  rw [count] at hhosts ⊢
  rw [hhosts]

theorem resolveHostPattern_eq :
    resolveHostPattern fuel hostPattern rangeLimit =
      (tryArbitraryRange fuel hostPattern rangeLimit).map fun hosts =>
        if hosts.isEmpty then hostsWithoutRange hostPattern else hosts := by
  rw [resolveHostPattern]
  cases tryArbitraryRange fuel hostPattern rangeLimit with
  | none => rfl
  | some inRange =>
    cases inRange with
    | nil => by_cases h : validWildCardedDottedQuadFormat hostPattern <;>
        simp [hostsWithoutRange, tryDottedQuad, h, maxByteValue]
    | cons host inRange => rfl

theorem length_tryDottedQuad (h : validWildCardedDottedQuadFormat hostPattern = true) :
    (tryDottedQuad hostPattern).length = maxByteValue + 1 := by
  rw [tryDottedQuad, if_pos h, List.length_map, List.length_range]

/-- **A pattern without a range** is resolved, to the hosts of a dotted quad or to itself. -/
theorem resolves_iff_of_none (h : parseRange hostPattern = none) :
    Resolves hostPattern rangeLimit hosts ↔ hosts = hostsWithoutRange hostPattern := by
  have hresolve (fuel : ℕ) : resolveHostPattern fuel hostPattern rangeLimit =
      some (hostsWithoutRange hostPattern) := by
    rw [resolveHostPattern_eq, tryArbitraryRange_eq, h]
    rfl
  simp only [Resolves, hresolve, Option.some.injEq, exists_const, eq_comm]

/-- A pattern with a range is not a dotted quad. -/
theorem not_validWildCardedDottedQuadFormat (h : parseRange hostPattern = some r) :
    ¬ validWildCardedDottedQuadFormat hostPattern = true := by
  intro hquad
  refine notMem_of_validWildCardedDottedQuadFormat hquad ?_
  exact (separator_of_parseRange h).1.subset (by decide)

theorem hostsWithoutRange_of_parseRange (h : parseRange hostPattern = some r) :
    hostsWithoutRange hostPattern = [hostPattern] :=
  if_neg (not_validWildCardedDottedQuadFormat h)

/-- **A pattern with a range** is resolved, if the loop ends, to the hosts that it added, or to
itself if there are none. -/
theorem resolves_iff_of_some (h : parseRange hostPattern = some r) :
    Resolves hostPattern rangeLimit hosts ↔
      (r.stop rangeLimit).toInt < 2 ^ 31 - 1 ∧
        hosts = if r.count rangeLimit = 0 then [hostPattern] else r.hosts (r.count rangeLimit) := by
  have hresolve (fuel : ℕ) : resolveHostPattern fuel hostPattern rangeLimit =
      (r.loop fuel rangeLimit).map fun hosts =>
        if hosts.isEmpty then [hostPattern] else hosts := by
    rw [resolveHostPattern_eq, tryArbitraryRange_eq, h, hostsWithoutRange_of_parseRange h]
    rfl
  have hempty : (r.hosts (r.count rangeLimit)).isEmpty ↔ r.count rangeLimit = 0 := by
    rw [List.isEmpty_iff, ← List.length_eq_zero_iff, length_hosts]
  simp only [Resolves, hresolve]
  by_cases hstop : (r.stop rangeLimit).toInt < 2 ^ 31 - 1
  · simp only [HostRange.loop_eq hstop, hstop, true_and, Option.map_if,
      Option.ite_none_right_eq_some, Option.some.injEq, hempty, exists_and_right]
    exact ⟨fun h => h.2.symm, fun h => ⟨⟨_, Nat.lt_succ_self _⟩, h.symm⟩⟩
  · have hmax : (r.stop rangeLimit).toInt = 2 ^ 31 - 1 := by
      have := (r.stop rangeLimit).toInt_lt
      omega
    simp only [HostRange.loop, addHosts_maxValue hmax, Option.map_none, reduceCtorEq, exists_false,
      hstop, false_and]

/-- No part of the separator is a digit. -/
theorem notMem_separator {c : Char} (h : c.isDigit = true) : c ∉ separator := by
  have hseparator : separator.all (!·.isDigit) = true := by decide
  intro hc
  have hnot := List.all_eq_true.mp hseparator c hc
  rw [h] at hnot
  exact absurd hnot (by decide)

/-- No number can end with the separator. -/
theorem not_separator_isInfix_append_padded {i w : ℕ} (h : ¬ separator <:+: pre) :
    ¬ separator <:+: pre ++ padded i w := by
  intro hoccurs
  exact h (isInfix_of_append (by decide)
    (fun c hc => notMem_separator (isDigit_of_mem_padded c hc)) hoccurs)

/-- A pattern with a range is not one of its hosts. -/
theorem notMem_hosts (h : parseRange hostPattern = some r) : hostPattern ∉ r.hosts n := by
  intro hmem
  obtain ⟨hoccurs, hpre⟩ := separator_of_parseRange h
  obtain ⟨i, -, rfl⟩ := List.mem_map.mp hmem
  exact not_separator_isInfix_append_padded hpre hoccurs

/-! ### Where the loop stops -/

theorem toInt_min (a b : Int32) : (min a b).toInt = min a.toInt b.toInt := by
  rw [show min a b = if a ≤ b then a else b from rfl]
  split
  · next h => rw [min_eq_left (Int32.le_iff_toInt_le.mp h)]
  · next h =>
    rw [Int32.le_iff_toInt_le, not_le] at h
    rw [min_eq_right h.le]

theorem toInt_max (a b : Int32) : (max a b).toInt = max a.toInt b.toInt := by
  rw [show max a b = if a ≤ b then b else a from rfl]
  split
  · next h => rw [max_eq_right (Int32.le_iff_toInt_le.mp h)]
  · next h =>
    rw [Int32.le_iff_toInt_le, not_le] at h
    rw [max_eq_left h.le]

/-- **Where the loop stops.** The sum of the first number and the limit wraps around. -/
theorem HostRange.toInt_stop (r : HostRange) (rangeLimit : Int32) :
    (r.stop rangeLimit).toInt =
      min r.last.toInt
        (max ((r.first.toInt + rangeLimit.toInt - 1).bmod (2 ^ 32)) rangeLimit.toInt) := by
  rw [stop, rangeEnd, toInt_min, toInt_max, Int32.toInt_sub, Int32.toInt_add,
    show (1 : Int32).toInt = 1 from rfl, Int.bmod_sub_bmod]

/-- **Without a limit** the loop stops at the last number of the range. -/
theorem HostRange.toInt_stop_maxValue (r : HostRange) :
    (r.stop Int32.maxValue).toInt = r.last.toInt := by
  have := r.last.toInt_lt
  rw [r.toInt_stop, show Int32.maxValue.toInt = 2 ^ 31 - 1 from rfl]
  omega

/-! ### Ranges of padded numbers -/

section Padded

variable {p s t : List Char} {a b i j w : ℕ}

theorem commonStart_append : commonStart (p ++ s) (p ++ t) = p ++ commonStart s t := by
  induction p with
  | nil => rfl
  | cons c p ih => rw [List.cons_append, List.cons_append, commonStart, if_pos rfl, ih,
      List.cons_append]

/-- What two addresses have in common, when they end with numbers. -/
theorem getCommonNonNumericPrefix_append (hp : ∀ c ∈ p.getLast?, c.isDigit = false)
    (hs : ∀ c ∈ s, c.isDigit = true) : getCommonNonNumericPrefix (p ++ s) (p ++ t) = p := by
  have hcommon : ∀ c ∈ (commonStart s t).reverse, c.isDigit = true := by
    intro c hc
    exact hs c ((isPrefix_commonStart s t).subset (List.mem_reverse.mp hc))
  rw [getCommonNonNumericPrefix, commonStart_append, List.rdropWhile, List.reverse_append,
    List.dropWhile_append_of_pos hcommon]
  exact rdropWhile_eq_self.mpr hp

/-- The addresses are taken apart where they were put together. -/
theorem splitText_padded (hp : ¬ separator <:+: p) :
    splitText separator (p ++ padded a w ++ separator ++ (p ++ padded b w)) =
      [p ++ padded a w, p ++ padded b w] := by
  obtain ⟨init, c, hc⟩ := (List.eq_nil_or_concat (padded a w)).resolve_left padded_ne_nil
  have hdigit : c.isDigit = true := isDigit_of_mem_padded c (by rw [hc]; simp)
  have hfirst : p ++ padded a w = p ++ init ++ [c] := by
    rw [hc, List.concat_eq_append, List.append_assoc]
  have hsecond : p ++ padded b w ≠ [] := List.append_ne_nil_of_right_ne_nil _ padded_ne_nil
  rw [hfirst, List.append_assoc]
  refine splitText_pair (by decide) hsecond (notMem_separator hdigit) ?_
    (not_separator_isInfix_append_padded hp)
  rw [← hfirst]
  exact not_separator_isInfix_append_padded hp

/-- Two addresses that end with numbers are a range. -/
theorem parseRange_padded (hp : ∀ c ∈ p.getLast?, c.isDigit = false) (hsep : ¬ separator <:+: p)
    (ha : (a : ℤ) < 2 ^ 31) (hb : (b : ℤ) < 2 ^ 31) :
    ∃ r, parseRange (p ++ padded a w ++ separator ++ (p ++ padded b w)) = some r ∧ r.pre = p ∧
      r.first.toInt = a ∧ r.last.toInt = b ∧ r.width = (padded a w).length := by
  have htoInt {n : ℕ} (hn : (n : ℤ) < 2 ^ 31) : (Int32.ofInt n).toInt = n :=
    Int32.toInt_ofInt_of_le (by omega) hn
  have hparse {n : ℕ} (hn : (n : ℤ) < 2 ^ 31) :
      Integer.parseInt (padded n w) = some (.ofInt n) := by
    rw [Integer.parseInt_eq_some_iff, htoInt hn]
    exact integer?_of_natural? natural?_padded
  have hpre : getCommonNonNumericPrefix (p ++ padded a w) (p ++ padded b w) = p :=
    getCommonNonNumericPrefix_append hp isDigit_of_mem_padded
  have hfirst : 0 ≤ (Int32.ofInt a).toInt := by
    rw [htoInt ha]
    omega
  refine ⟨⟨p, .ofInt a, .ofInt b, (padded a w).length, hfirst⟩, ?_, rfl, htoInt ha, htoInt hb, rfl⟩
  rw [parseRange, splitText_padded hsep]
  simp only [hpre, List.drop_left, parseSuffixes, hparse ha, hparse hb, dif_pos hfirst]

theorem length_toDigits_mono (h : a ≤ i) :
    (Nat.toDigits 10 a).length ≤ (Nat.toDigits 10 i).length := by
  have hi := (Nat.length_toDigits_le_iff (b := 10) (by decide) Nat.length_toDigits_pos).mp
    (le_refl (Nat.toDigits 10 i).length)
  exact (Nat.length_toDigits_le_iff (by decide) Nat.length_toDigits_pos).mpr (by omega)

/-- A number is not longer for being padded to the width of a smaller one. -/
theorem padded_length_padded (h : a ≤ i) : padded i (padded a w).length = padded i w := by
  have hlength := length_toDigits_mono h
  rw [length_padded, padded, padded, List.leftpad, List.leftpad,
    show max w (Nat.toDigits 10 a).length - (Nat.toDigits 10 i).length =
      w - (Nat.toDigits 10 i).length by omega]

theorem padded_injective : Function.Injective (padded · w) := by
  intro i j h
  have hread : natural? (padded i w) = natural? (padded j w) := congrArg natural? h
  rw [natural?_padded, natural?_padded] at hread
  exact Option.some.inj hread

/-- **A range of padded numbers** is resolved to the addresses from its first to its last, each
once, and to itself if the first comes after the last. -/
theorem resolves_padded_iff (hp : ∀ c ∈ p.getLast?, c.isDigit = false)
    (hsep : ¬ separator <:+: p) (ha : a < 2 ^ 31 - 1) (hb : b < 2 ^ 31 - 1) :
    (Resolves (p ++ padded a w ++ separator ++ (p ++ padded b w)) Int32.maxValue hosts ↔
      hosts = if a ≤ b then (List.range' a (b + 1 - a)).map (p ++ padded · w)
        else [p ++ padded a w ++ separator ++ (p ++ padded b w)]) ∧
      ((List.range' a (b + 1 - a)).map (p ++ padded · w)).Nodup := by
  constructor
  · obtain ⟨r, hr, hpre, hfirst, hlast, hwidth⟩ :=
      parseRange_padded (w := w) hp hsep (a := a) (b := b) (by omega) (by omega)
    have hcount : r.count Int32.maxValue = b + 1 - a := by
      rw [HostRange.count, r.toInt_stop_maxValue]
      omega
    have hhosts : r.hosts (b + 1 - a) =
        (List.range' a (b + 1 - a)).map (p ++ padded · w) := by
      rw [HostRange.hosts, hpre, hwidth, show r.first.toInt.toNat = a by omega]
      refine List.map_congr_left fun i hi => ?_
      rw [padded_length_padded (List.mem_range'_1.mp hi).1]
    have hends : (r.stop Int32.maxValue).toInt < 2 ^ 31 - 1 := by
      rw [r.toInt_stop_maxValue]
      omega
    rw [resolves_iff_of_some hr, and_iff_right hends, hcount, hhosts]
    by_cases hle : a ≤ b
    · rw [if_neg (by omega), if_pos hle]
    · rw [if_pos (by omega), if_neg hle]
  · refine List.Nodup.map ?_ List.nodup_range'
    exact (List.append_right_injective p).comp padded_injective

/-- The three hosts from `mac1-009` to `mac1-011`. -/
theorem resolves_mac1 :
    Resolves "mac1-009 - mac1-011".toList Int32.maxValue
      ["mac1-009".toList, "mac1-010".toList, "mac1-011".toList] :=
  (resolves_padded_iff (p := "mac1-".toList) (a := 9) (b := 11) (w := 3) (by simp) (by decide)
    (by decide) (by decide)).1.mpr (by decide)

end Padded

end Patterns

end Shabdiz
