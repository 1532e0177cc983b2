import Shabdiz.Util.HostRanges

/-!
# Dotted quads with a star

`Patterns.validWildCardedDottedQuadFormat` splits at the dots, which drops the empty quads after
the star, and parses the quads as `int`s, which have a sign and digits of any script. What it
accepts is therefore more than three octets and a star.

## Main definitions

* `Patterns.IsOctet`, `Patterns.IsQuadPattern` — the dotted quads as they are documented
* `Patterns.IsLoosePattern` — what else is accepted
* `Patterns.RecognisesQuads` — a pattern is resolved as it should be

## Main results

* `Patterns.recognisesQuads_iff` — this is so of exactly the patterns that are not loose
-/

namespace Shabdiz

namespace Patterns

variable {quad s : List Char} {quads quads' : List (List Char)} {k : ℕ}

/-- Digits for a value up to 255. -/
def IsOctet (quad : List Char) : Prop :=
  quad ≠ [] ∧ (∀ c ∈ quad, c.isDigit = true) ∧ Nat.ofDigitChars 10 quad 0 ≤ maxByteValue

/-- Three octets and a star, with dots between them. -/
def IsQuadPattern (quads : List (List Char)) (s : List Char) : Prop :=
  quads.length = 3 ∧ (∀ quad ∈ quads, IsOctet quad) ∧ s = terminated '.' quads ++ ['*']

instance : Decidable (IsOctet quad) :=
  decidable_of_iff (quad ≠ [] ∧ quad.all Char.isDigit = true ∧
    Nat.ofDigitChars 10 quad 0 ≤ maxByteValue) (by simp [IsOctet])

instance : Decidable (IsQuadPattern quads s) := inferInstanceAs (Decidable (_ ∧ _))

/-- Three numerals for values up to 255 and a star, with dots between them, and either dots after
the star or a character in the numerals that is no ASCII digit. -/
def IsLoosePattern (s : List Char) : Prop :=
  ∃ quads k, quads.length = 3 ∧
    (∀ quad ∈ quads, ∃ i, integer? quad = some i ∧ 0 ≤ i ∧ i ≤ maxByteValue) ∧
      s = terminated '.' quads ++ '*' :: List.replicate k '.' ∧
        (0 < k ∨ ∃ quad ∈ quads, ∃ c ∈ quad, c.isDigit = false)

/-- A dotted quad with a star, and nothing else, is resolved to 256 hosts, which are those with the
values of an octet in the place of the star; any other pattern is resolved to itself. -/
def RecognisesQuads (s : List Char) : Prop :=
  ∃ hosts, Resolves s Int32.maxValue hosts ∧
    (hosts.length = maxByteValue + 1 ↔ ∃ quads, IsQuadPattern quads s) ∧
    (∀ quads, IsQuadPattern quads s → hosts = (List.range (maxByteValue + 1)).map
      fun i => terminated '.' quads ++ Nat.toDigits 10 i) ∧
    ((¬ ∃ quads, IsQuadPattern quads s) → hosts = [s])

theorem isValidQuadValue_iff :
    isValidQuadValue quad = true ↔ ∃ i, integer? quad = some i ∧ 0 ≤ i ∧ i ≤ maxByteValue :=
  isPositiveInt_iff (by decide)

/-- An octet is a quad of nothing but digits. -/
theorem isOctet_iff :
    IsOctet quad ↔ isValidQuadValue quad = true ∧ ∀ c ∈ quad, c.isDigit = true := by
  have hread (hne : quad ≠ []) (hdigits : ∀ c ∈ quad, c.isDigit = true) :
      integer? quad = some (Nat.ofDigitChars 10 quad 0 : ℕ) :=
    integer?_of_natural? (natural?_of_isDigit hne hdigits)
  rw [isValidQuadValue_iff]
  constructor
  · rintro ⟨hne, hdigits, hle⟩
    exact ⟨⟨_, hread hne hdigits, by omega, by omega⟩, hdigits⟩
  · rintro ⟨⟨i, hi, _, hle⟩, hdigits⟩
    have hne : quad ≠ [] := by
      rintro rfl
      exact absurd hi (by rw [integer?_nil]; simp)
    rw [hread hne hdigits] at hi
    have := Option.some.inj hi
    exact ⟨hne, hdigits, by omega⟩

/-- The quads of a pattern are read off from it. -/
theorem eq_of_quads (h : ∀ quad ∈ quads, isValidQuadValue quad = true)
    (h' : ∀ quad ∈ quads', isValidQuadValue quad = true)
    (heq : terminated '.' quads ++ '*' :: List.replicate k '.' = terminated '.' quads' ++ ['*']) :
    quads = quads' ∧ k = 0 := by
  have hfields : splitFields '.' (terminated '.' quads' ++ ['*']) = quads' ++ [['*']] :=
    splitFields_quads (k := 0) h'
  rw [← heq, splitFields_quads h] at hfields
  have hquads := List.append_cancel_right hfields
  refine ⟨hquads, ?_⟩
  rw [hquads] at heq
  have hlength := congrArg List.length (List.append_cancel_left heq)
  simpa using hlength

theorem not_isLoosePattern (h : IsQuadPattern quads s) : ¬ IsLoosePattern s := by
  rintro ⟨quads', k, _, hvalid, hs, hloose⟩
  obtain ⟨-, hoctets, rfl⟩ := h
  have hquads : ∀ quad ∈ quads, isValidQuadValue quad = true := fun quad hquad =>
    (isOctet_iff.mp (hoctets quad hquad)).1
  obtain ⟨rfl, rfl⟩ :=
    eq_of_quads (fun quad hquad => isValidQuadValue_iff.mpr (hvalid quad hquad)) hquads hs.symm
  rcases hloose with hk | ⟨quad, hquad, c, hc, hdigit⟩
  · exact absurd hk (by omega)
  · rw [(isOctet_iff.mp (hoctets quad hquad)).2 c hc] at hdigit
    exact absurd hdigit (by decide)

/-- What is accepted is a dotted quad or a loose pattern. -/
theorem validWildCardedDottedQuadFormat_iff_or :
    validWildCardedDottedQuadFormat s = true ↔
      (∃ quads, IsQuadPattern quads s) ∨ IsLoosePattern s := by
  rw [validWildCardedDottedQuadFormat_iff]
  constructor
  · rintro ⟨quads, k, hlength, hvalid, hs⟩
    by_cases hstrict : k = 0 ∧ ∀ quad ∈ quads, ∀ c ∈ quad, c.isDigit = true
    · obtain ⟨rfl, hdigits⟩ := hstrict
      exact .inl ⟨quads, hlength,
        fun quad hquad => isOctet_iff.mpr ⟨hvalid quad hquad, hdigits quad hquad⟩, hs⟩
    · refine .inr ⟨quads, k, hlength, fun quad hquad => isValidQuadValue_iff.mp (hvalid quad hquad),
        hs, ?_⟩
      by_contra hnot
      simp only [not_or, not_exists, not_and, Bool.not_eq_false] at hnot
      exact hstrict ⟨by omega, hnot.2⟩
  · rintro (⟨quads, hlength, hoctets, hs⟩ | ⟨quads, k, hlength, hvalid, hs, -⟩)
    · exact ⟨quads, 0, hlength, fun quad hquad => (isOctet_iff.mp (hoctets quad hquad)).1, hs⟩
    · exact ⟨quads, k, hlength, fun quad hquad => isValidQuadValue_iff.mpr (hvalid quad hquad), hs⟩

/-- The hosts of a dotted quad. -/
theorem tryDottedQuad_of_isQuadPattern (h : IsQuadPattern quads s) :
    tryDottedQuad s = (List.range (maxByteValue + 1)).map
      fun i => terminated '.' quads ++ Nat.toDigits 10 i := by
  rw [tryDottedQuad, if_pos (validWildCardedDottedQuadFormat_iff_or.mpr (.inl ⟨quads, h⟩)), h.2.2,
    List.dropLast_concat]
  refine List.map_congr_left fun i _ => ?_
  rw [integerText, if_neg (by omega), Int.natAbs_natCast]

theorem recognisesQuads_iff_hostsWithoutRange (hs : ¬ separator <:+: s) :
    RecognisesQuads s ↔
      ((hostsWithoutRange s).length = maxByteValue + 1 ↔ ∃ quads, IsQuadPattern quads s) ∧
      (∀ quads, IsQuadPattern quads s → hostsWithoutRange s = (List.range (maxByteValue + 1)).map
        fun i => terminated '.' quads ++ Nat.toDigits 10 i) ∧
      ((¬ ∃ quads, IsQuadPattern quads s) → hostsWithoutRange s = [s]) := by
  have hnone : parseRange s = none := by rw [parseRange, splitText_of_not_isInfix hs]
  simp only [RecognisesQuads, resolves_iff_of_none hnone, exists_eq_left]

/-- A loose pattern is resolved to 256 hosts. -/
theorem not_recognisesQuads (hs : ¬ separator <:+: s) (h : IsLoosePattern s) :
    ¬ RecognisesQuads s := by
  have hvalid := validWildCardedDottedQuadFormat_iff_or.mpr (.inr h)
  rw [recognisesQuads_iff_hostsWithoutRange hs, hostsWithoutRange, if_pos hvalid]
  rintro ⟨hlength, _, _⟩
  obtain ⟨quads, hquads⟩ := hlength.mp (length_tryDottedQuad hvalid)
  exact not_isLoosePattern hquads h

/-- **The patterns that are resolved as they should be** are those that are not loose. -/
theorem recognisesQuads_iff (hs : ¬ separator <:+: s) :
    RecognisesQuads s ↔ ¬ IsLoosePattern s := by
  refine ⟨fun h hloose => not_recognisesQuads hs hloose h, fun hloose => ?_⟩
  rw [recognisesQuads_iff_hostsWithoutRange hs, hostsWithoutRange]
  by_cases hquad : ∃ quads, IsQuadPattern quads s
  · have hvalid := validWildCardedDottedQuadFormat_iff_or.mpr (.inl hquad)
    rw [if_pos hvalid]
    exact ⟨iff_of_true (length_tryDottedQuad hvalid) hquad,
      fun _ => tryDottedQuad_of_isQuadPattern, fun hnot => absurd hquad hnot⟩
  · have hvalid := validWildCardedDottedQuadFormat_iff_or.not.mpr (not_or.mpr ⟨hquad, hloose⟩)
    have hlength : [s].length ≠ maxByteValue + 1 := by
      rw [List.length_singleton, maxByteValue]
      omega
    rw [if_neg hvalid]
    exact ⟨iff_of_false hlength hquad, fun quads h => absurd ⟨quads, h⟩ hquad, fun _ => rfl⟩

theorem recognisesQuads_example : RecognisesQuads "138.251.195.*".toList :=
  (recognisesQuads_iff (by decide)).mpr <| not_isLoosePattern <|
    show IsQuadPattern ["138".toList, "251".toList, "195".toList] _ by decide

/-- A dot after the star is accepted, and is taken for a part of the address. -/
theorem not_recognisesQuads_dot : ¬ RecognisesQuads "1.2.3.*.".toList := by
  have hvalid : ∀ quad ∈ [['1'], ['2'], ['3']], isValidQuadValue quad = true := by decide
  exact not_recognisesQuads (by decide) ⟨[['1'], ['2'], ['3']], 1, rfl,
    fun quad hquad => isValidQuadValue_iff.mp (hvalid quad hquad), rfl, .inl (by decide)⟩

end Patterns

end Shabdiz
