import Mathlib.Data.Set.Defs
import Mathlib.Order.Compare
import Mathlib.Order.Lattice

/-!
# Comparing texts chunk by chunk

Two texts that have been cut into chunks are compared at the first chunk where they differ: by value
if both chunks are numbers there, and as texts if one of them is not. Where they do not differ the
shorter one comes first.

This need not be transitive. A chunk that is no number can stand, as a text, between two that are
numbers in the other order of their values; and two chunks of the same value end the comparison
whatever follows, although it would matter between texts that agree on that chunk. There is no other
obstacle.

## Main definitions

* `compareChunks` — the comparison
* `Alike` — texts between which it does not decide
* `Orderly` — a set of texts without either obstacle

## Main results

* `compareChunks_swap`, `compareChunks_eq_iff` — the comparison the other way, and where it is even
* `transitive_iff_orderly` — it is transitive on the orderly sets and on no other
-/

namespace Shabdiz

variable {γ ν : Type} [LinearOrder γ] [LinearOrder ν] (number : γ → Option ν)
variable {x y z : γ} {s t r p : List γ} {u v w : ν} {W : Set (List γ)}

/-- The order of two different chunks. -/
def compareHeads (x y : γ) : Ordering :=
  match number x, number y with
  | some u, some v => compare u v
  | _, _ => compare x y

/-- The comparison of two lists of chunks: their first difference decides. -/
def compareChunks : List γ → List γ → Ordering
  | [], [] => .eq
  | [], _ :: _ => .lt
  | _ :: _, [] => .gt
  | x :: s, y :: t => if x = y then compareChunks s t else compareHeads number x y

/-- The first chunks that differ, if any, are numbers of the same value. -/
inductive Alike : List γ → List γ → Prop
  | nil : Alike [] []
  | cons (x : γ) {s t : List γ} (h : Alike s t) : Alike (x :: s) (x :: t)
  | tie {x y : γ} {u : ν} (s t : List γ) (hne : x ≠ y) (hx : number x = some u)
      (hy : number y = some u) : Alike (x :: s) (y :: t)

/-- Of texts that agree on the chunks `p` and differ afterwards: no chunk that is not a number
stands between two numbers in the other order of their values, or of the same value; and texts that
agree on a number as well are alike when there is another number of its value. -/
structure Orderly (W : Set (List γ)) : Prop where
  between : ∀ ⦃p x y z s t r u w⦄, p ++ x :: s ∈ W → p ++ y :: t ∈ W → p ++ z :: r ∈ W →
    number x = some u → number y = none → number z = some w → x < y → y < z → u < w
  ties : ∀ ⦃p x z s t r u⦄, p ++ x :: s ∈ W → p ++ x :: t ∈ W → p ++ z :: r ∈ W →
    x ≠ z → number x = some u → number z = some u → Alike number s t

variable {number}

/-! ### Two chunks -/

theorem compareHeads_numbers (hx : number x = some u) (hy : number y = some v) :
    compareHeads number x y = compare u v := by
  rw [compareHeads, hx, hy]

theorem compareHeads_left (hx : number x = none) : compareHeads number x y = compare x y := by
  rw [compareHeads, hx]

theorem compareHeads_right (hy : number y = none) : compareHeads number x y = compare x y := by
  rw [compareHeads, hy]
  cases number x <;> rfl

theorem compareHeads_swap : (compareHeads number x y).swap = compareHeads number y x := by
  cases hx : number x with
  | none => rw [compareHeads_left hx, compareHeads_right hx, ← Std.OrientedOrd.eq_swap]
  | some u =>
    cases hy : number y with
    | none => rw [compareHeads_right hy, compareHeads_left hy, ← Std.OrientedOrd.eq_swap]
    | some v =>
      rw [compareHeads_numbers hx hy, compareHeads_numbers hy hx, ← Std.OrientedOrd.eq_swap]

theorem compareHeads_eq_iff (hne : x ≠ y) :
    compareHeads number x y = .eq ↔ ∃ u, number x = some u ∧ number y = some u := by
  constructor
  · intro h
    cases hx : number x with
    | none => exact absurd (compare_eq_iff_eq.mp ((compareHeads_left hx).symm.trans h)) hne
    | some u =>
      cases hy : number y with
      | none => exact absurd (compare_eq_iff_eq.mp ((compareHeads_right hy).symm.trans h)) hne
      | some v =>
        have huv : u = v := compare_eq_iff_eq.mp ((compareHeads_numbers hx hy).symm.trans h)
        exact ⟨u, rfl, by rw [huv]⟩
  · rintro ⟨u, hx, hy⟩
    rw [compareHeads_numbers hx hy]
    exact compare_eq_iff_eq.mpr rfl

section Between

/-! Two numbers in the order of their values and a chunk that is none, which does not stand between
them in the other order. -/

variable (hbetween : y < z → z < x → v < u) (hle : u ≤ v)
include hbetween hle

theorem le_of_not_between (hx : number x = some u) (hz : number z = none) (h : z ≤ x) : z ≤ y := by
  have hne : z ≠ x := by
    rintro rfl
    simp [hz] at hx
  by_contra hlt
  exact absurd (hbetween (not_le.mp hlt) (lt_of_le_of_ne h hne)) (not_lt.mpr hle)

theorem ge_of_not_between (hx : number x = some u) (hy : number y = some v) (hz : number z = none)
    (h : y ≤ z) : x ≤ z := by
  by_contra hlt
  have hzy := le_of_not_between hbetween hle hx hz (not_le.mp hlt).le
  obtain rfl := le_antisymm h hzy
  simp [hy] at hz

end Between

/-- Three chunks of which none that is no number stands between numbers that are not in order. -/
theorem compareHeads_trans
    (hbetween : ∀ a ∈ [x, y, z], ∀ b ∈ [x, y, z], ∀ c ∈ [x, y, z], ∀ u w, number a = some u →
      number b = none → number c = some w → a < b → b < c → u < w)
    (hxy : compareHeads number x y ≠ .gt) (hyz : compareHeads number y z ≠ .gt) :
    compareHeads number x z ≠ .gt := by
  cases hx : number x with
  | none =>
    rw [compareHeads_left hx, compare_le_iff_le] at hxy ⊢
    cases hy : number y with
    | none =>
      rw [compareHeads_left hy, compare_le_iff_le] at hyz
      exact hxy.trans hyz
    | some v =>
      cases hz : number z with
      | none =>
        rw [compareHeads_right hz, compare_le_iff_le] at hyz
        exact hxy.trans hyz
      | some w =>
        rw [compareHeads_numbers hy hz, compare_le_iff_le] at hyz
        exact le_of_not_between
          (hbetween z (by simp) x (by simp) y (by simp) w v hz hx hy) hyz hy hx hxy
  | some u =>
    cases hy : number y with
    | none =>
      rw [compareHeads_right hy, compare_le_iff_le] at hxy
      rw [compareHeads_left hy, compare_le_iff_le] at hyz
      cases hz : number z with
      | none =>
        rw [compareHeads_right hz, compare_le_iff_le]
        exact hxy.trans hyz
      | some w =>
        rw [compareHeads_numbers hx hz, compare_le_iff_le]
        by_contra hlt
        have hyx := le_of_not_between
          (hbetween x (by simp) y (by simp) z (by simp) u w hx hy hz) (not_le.mp hlt).le hz hy hyz
        obtain rfl := le_antisymm hxy hyx
        simp [hx] at hy
    | some v =>
      rw [compareHeads_numbers hx hy, compare_le_iff_le] at hxy
      cases hz : number z with
      | none =>
        rw [compareHeads_right hz, compare_le_iff_le] at hyz ⊢
        exact ge_of_not_between
          (hbetween y (by simp) z (by simp) x (by simp) v u hy hz hx) hxy hx hy hz hyz
      | some w =>
        rw [compareHeads_numbers hy hz, compare_le_iff_le] at hyz
        rw [compareHeads_numbers hx hz, compare_le_iff_le]
        exact hxy.trans hyz

/-! ### The comparison -/

theorem compareChunks_cons_self :
    compareChunks number (x :: s) (x :: t) = compareChunks number s t := if_pos rfl

theorem compareChunks_cons_of_ne (h : x ≠ y) :
    compareChunks number (x :: s) (y :: t) = compareHeads number x y := if_neg h

theorem compareChunks_append :
    compareChunks number (p ++ s) (p ++ t) = compareChunks number s t := by
  induction p with
  | nil => rfl
  | cons x p ih => exact compareChunks_cons_self.trans ih

/-- **The comparison the other way.** -/
theorem compareChunks_swap : (compareChunks number s t).swap = compareChunks number t s := by
  induction s generalizing t with
  | nil => cases t <;> rfl
  | cons x s ih =>
    cases t with
    | nil => rfl
    | cons y t =>
      by_cases hxy : x = y
      · subst hxy
        rw [compareChunks_cons_self, compareChunks_cons_self, ih]
      · rw [compareChunks_cons_of_ne hxy, compareChunks_cons_of_ne (Ne.symm hxy), compareHeads_swap]

/-- **Where the comparison is even.** -/
theorem compareChunks_eq_iff : compareChunks number s t = .eq ↔ Alike number s t := by
  constructor
  · intro h
    induction s generalizing t with
    | nil =>
      cases t with
      | nil => exact .nil
      | cons y t => exact absurd h (by simp [compareChunks])
    | cons x s ih =>
      cases t with
      | nil => exact absurd h (by simp [compareChunks])
      | cons y t =>
        by_cases hxy : x = y
        · subst hxy
          exact .cons x (ih (compareChunks_cons_self.symm.trans h))
        · rw [compareChunks_cons_of_ne hxy, compareHeads_eq_iff hxy] at h
          obtain ⟨u, hx, hy⟩ := h
          exact .tie s t hxy hx hy
  · intro h
    induction h with
    | nil => rfl
    | cons x _ ih => exact compareChunks_cons_self.trans ih
    | tie s t hne hx hy =>
      rw [compareChunks_cons_of_ne hne]
      exact (compareHeads_eq_iff hne).mpr ⟨_, hx, hy⟩

theorem compareChunks_self : compareChunks number s s = .eq := by
  induction s with
  | nil => rfl
  | cons x s ih => exact compareChunks_cons_self.trans ih

theorem eq_of_ne_gt_of_swap {o o' : Ordering} (h : o.swap = o') (ho : o ≠ .gt) (ho' : o' ≠ .gt) :
    o = .eq := by
  subst h
  cases o with
  | lt => exact absurd rfl ho'
  | eq => rfl
  | gt => exact absurd rfl ho

/-! ### Transitivity -/

theorem Orderly.tail (h : Orderly number W) (x : γ) : Orderly number {s | x :: s ∈ W} where
  between := fun p _ _ _ _ _ _ _ _ hs ht hr => h.between (p := x :: p) hs ht hr
  ties := fun p _ _ _ _ _ _ hs ht hr => h.ties (p := x :: p) hs ht hr

theorem Orderly.trans (h : Orderly number W) (hs : s ∈ W) (ht : t ∈ W) (hr : r ∈ W)
    (hst : compareChunks number s t ≠ .gt) (htr : compareChunks number t r ≠ .gt) :
    compareChunks number s r ≠ .gt := by
  -- Induction on the first text; the set is that of the texts after the chunks they agree on.
  induction s generalizing t r W with
  | nil => cases r <;> simp [compareChunks]
  | cons x s ih =>
    cases t with
    | nil => exact absurd rfl hst
    | cons y t =>
      cases r with
      | nil => exact absurd rfl htr
      | cons z r =>
        by_cases hxy : x = y
        · subst hxy
          by_cases hxz : x = z
          · subst hxz
            rw [compareChunks_cons_self] at hst htr ⊢
            exact ih (h.tail x) hs ht hr hst htr
          · rw [compareChunks_cons_of_ne hxz] at htr ⊢
            exact htr
        · rw [compareChunks_cons_of_ne hxy] at hst
          by_cases hyz : y = z
          · subst hyz
            rw [compareChunks_cons_of_ne hxy]
            exact hst
          · rw [compareChunks_cons_of_ne hyz] at htr
            by_cases hxz : x = z
            · subst hxz
              obtain ⟨u, hx, hy⟩ :=
                (compareHeads_eq_iff hxy).mp (eq_of_ne_gt_of_swap compareHeads_swap hst htr)
              have halike := h.ties (p := []) hs hr ht hxy hx hy
              rw [compareChunks_cons_self, compareChunks_eq_iff.mpr halike]
              exact Ordering.noConfusion
            · rw [compareChunks_cons_of_ne hxz]
              refine compareHeads_trans ?_ hst htr
              have hmem : ∀ a ∈ [x, y, z], ∃ q, a :: q ∈ W := by
                simp only [List.forall_mem_cons, List.not_mem_nil, false_imp_iff, implies_true,
                  and_true]
                exact ⟨⟨s, hs⟩, ⟨t, ht⟩, ⟨r, hr⟩⟩
              intro a ha b hb c hc u w
              obtain ⟨_, ha⟩ := hmem a ha
              obtain ⟨_, hb⟩ := hmem b hb
              obtain ⟨_, hc⟩ := hmem c hc
              exact h.between (p := []) ha hb hc

/-- **The comparison is transitive on the orderly sets and on no other.** -/
theorem transitive_iff_orderly :
    (∀ s ∈ W, ∀ t ∈ W, ∀ r ∈ W, compareChunks number s t ≠ .gt → compareChunks number t r ≠ .gt →
      compareChunks number s r ≠ .gt) ↔ Orderly number W := by
  constructor
  · intro h
    constructor
    · intro p x y z s t r u w hs ht hr hx hy hz hxy hyz
      have hst : compareChunks number (p ++ x :: s) (p ++ y :: t) = .lt := by
        rw [compareChunks_append, compareChunks_cons_of_ne hxy.ne, compareHeads_right hy]
        exact compare_lt_iff_lt.mpr hxy
      have htr : compareChunks number (p ++ y :: t) (p ++ z :: r) = .lt := by
        rw [compareChunks_append, compareChunks_cons_of_ne hyz.ne, compareHeads_left hy]
        exact compare_lt_iff_lt.mpr hyz
      have hsr : compareChunks number (p ++ x :: s) (p ++ z :: r) = compare u w := by
        rw [compareChunks_append, compareChunks_cons_of_ne (hxy.trans hyz).ne,
          compareHeads_numbers hx hz]
      have huw := h _ hs _ ht _ hr (by simp [hst]) (by simp [htr])
      rw [hsr, compare_le_iff_le] at huw
      refine lt_of_le_of_ne huw fun heq => ?_
      -- With the same value the third comes before the first, and then before the second.
      have hrs : compareChunks number (p ++ z :: r) (p ++ x :: s) = .eq := by
        rw [← compareChunks_swap, hsr, compare_eq_iff_eq.mpr heq]
        rfl
      refine h _ hr _ hs _ ht (by simp [hrs]) (by simp [hst]) ?_
      rw [← compareChunks_swap, htr]
      rfl
    · intro p x z s t r u hs ht hr hxz hx hz
      have htie : ∀ q, compareChunks number (p ++ x :: q) (p ++ z :: r) = .eq := fun q => by
        rw [compareChunks_append, compareChunks_cons_of_ne hxz]
        exact (compareHeads_eq_iff hxz).mpr ⟨u, hx, hz⟩
      have htie' : ∀ q, compareChunks number (p ++ z :: r) (p ++ x :: q) = .eq := fun q => by
        rw [← compareChunks_swap, htie q]
        rfl
      have hst := h _ hs _ hr _ ht (by simp [htie]) (by simp [htie'])
      have hts := h _ ht _ hr _ hs (by simp [htie]) (by simp [htie'])
      have heq := eq_of_ne_gt_of_swap compareChunks_swap hst hts
      rw [compareChunks_append, compareChunks_cons_self] at heq
      exact compareChunks_eq_iff.mp heq
  · intro h s hs t ht r hr
    exact h.trans hs ht hr

end Shabdiz
