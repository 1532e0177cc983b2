import Mathlib.Data.List.Infix
import Shabdiz.Text.Fields

/-!
# Splitting at a text

`splitText` takes a text apart at another one as `String.split` does: the occurrences are found
from left to right and do not overlap, a text without any is its only piece, and the empty pieces
at the end are dropped. Where the text to split at is a single character this is `splitFields`, of
which it is shown here what its fields say about the text.

## Main definitions

* `piecesFrom`, `splitText` — the pieces of a text

## Main results

* `splitText_of_not_isInfix`, `splitText_pair` — texts with no occurrence, and with one
* `not_isInfix_of_mem_splitText` — the pieces have none
* `splitFields_eq_concat_iff` — the texts that have given fields
-/

namespace Shabdiz

variable {α : Type} [DecidableEq α]

/-! ### Splitting at a text -/

/-- The pieces of a text between the occurrences of `d`. The first `skip` characters belong to an
occurrence that has been found. -/
def piecesFrom (d : List α) : (skip : ℕ) → List α → List (List α)
  | _, [] => [[]]
  | k + 1, _ :: s => piecesFrom d k s
  | 0, c :: s =>
    if d <+: c :: s then [] :: piecesFrom d (d.length - 1) s
    else (piecesFrom d 0 s).modifyHead (c :: ·)

/-- `String.split`, with a text that has no special characters. -/
def splitText (d s : List α) : List (List α) :=
  if d <:+: s then (piecesFrom d 0 s).rdropWhile List.isEmpty else [s]

section SplitText

variable {d s a b : List α}

theorem splitText_of_not_isInfix (h : ¬ d <:+: s) : splitText d s = [s] := by
  rw [splitText, if_neg h]

theorem piecesFrom_of_not_isInfix (h : ¬ d <:+: s) : piecesFrom d 0 s = [s] := by
  induction s with
  | nil => rfl
  | cons c s ih =>
    rw [List.infix_cons_iff, not_or] at h
    rw [piecesFrom, if_neg h.1, ih h.2, List.modifyHead_cons]

theorem piecesFrom_length (w : List α) :
    piecesFrom d w.length (w ++ b) = piecesFrom d 0 b := by
  induction w with
  | nil => rfl
  | cons c w ih => rw [List.length_cons, List.cons_append, piecesFrom, ih]

/-- An occurrence ends a piece, if none begins earlier. -/
theorem piecesFrom_append (hd : d ≠ [])
    (h : ∀ t, t <:+ a → t ≠ [] → ¬ d <+: t ++ (d ++ b)) :
    piecesFrom d 0 (a ++ (d ++ b)) = a :: piecesFrom d 0 b := by
  induction a with
  | nil =>
    obtain ⟨c, e, rfl⟩ := List.exists_cons_of_ne_nil hd
    have hstarts : c :: e <+: c :: (e ++ b) := List.prefix_append (c :: e) b
    rw [List.nil_append, List.cons_append, piecesFrom, if_pos hstarts, List.length_cons,
      Nat.add_sub_cancel, piecesFrom_length e]
  | cons c a ih =>
    have hnot : ¬ d <+: c :: (a ++ (d ++ b)) := h (c :: a) (List.suffix_refl _) (by simp)
    rw [List.cons_append, piecesFrom, if_neg hnot,
      ih fun t ht => h t (ht.trans (List.suffix_cons c a)), List.modifyHead_cons]

/-- **A text with one occurrence** has two pieces. The occurrence that is found is that one if
`a` ends with a character that `d` does not have. -/
theorem splitText_pair {c : α} (hd : d ≠ []) (hb : b ≠ []) (hc : c ∉ d)
    (ha : ¬ d <:+: a ++ [c]) (hdb : ¬ d <:+: b) :
    splitText d (a ++ [c] ++ (d ++ b)) = [a ++ [c], b] := by
  have hoccurs : d <:+: a ++ [c] ++ (d ++ b) := ⟨a ++ [c], b, by simp⟩
  have hfirst : ∀ t, t <:+ a ++ [c] → t ≠ [] → ¬ d <+: t ++ (d ++ b) := by
    intro t ht hne hdt
    obtain hdt | hdt := List.prefix_or_prefix_of_prefix hdt (List.prefix_append t (d ++ b))
    · exact ha (hdt.isInfix.trans ht.isInfix)
    · -- The last character of `t` would be one of `d`.
      obtain ⟨u, hu⟩ := ht
      have hmem : c ∈ t := by
        have hlast := congrArg List.getLast? hu
        rw [List.getLast?_append_of_ne_nil _ hne, List.getLast?_concat] at hlast
        exact List.mem_of_getLast? hlast
      exact hc (hdt.subset hmem)
  rw [splitText, if_pos hoccurs, piecesFrom_append hd hfirst, piecesFrom_of_not_isInfix hdb,
    List.rdropWhile_eq_self_iff.mpr]
  simpa using hb

/-- The first piece of a text is what it begins with. -/
theorem piecesFrom_eq_cons (d s : List α) : ∃ w ws, piecesFrom d 0 s = w :: ws ∧ w <+: s := by
  induction s with
  | nil => exact ⟨[], [], rfl, List.prefix_refl _⟩
  | cons c s ih =>
    rw [piecesFrom]
    split
    · exact ⟨[], _, rfl, List.nil_prefix⟩
    · obtain ⟨w, ws, hpieces, hw⟩ := ih
      exact ⟨c :: w, ws, by rw [hpieces, List.modifyHead_cons], (List.prefix_cons_inj c).mpr hw⟩

theorem not_isInfix_of_mem_piecesFrom (hd : d ≠ []) (k : ℕ) :
    ∀ w ∈ piecesFrom d k s, ¬ d <:+: w := by
  induction s generalizing k with
  | nil => simpa [piecesFrom] using hd
  | cons c s ih =>
    cases k with
    | succ k => exact ih k
    | zero =>
      rw [piecesFrom]
      split
      · exact List.forall_mem_cons.mpr ⟨by simpa using hd, ih _⟩
      · next hnot =>
        -- An occurrence in the first piece would begin with `c`, or be one in the rest.
        obtain ⟨w, ws, hpieces, hw⟩ := piecesFrom_eq_cons d s
        have ih := ih 0
        rw [hpieces, List.forall_mem_cons] at ih
        rw [hpieces, List.modifyHead_cons, List.forall_mem_cons, List.infix_cons_iff, not_or]
        exact ⟨⟨fun h => hnot (h.trans ((List.prefix_cons_inj c).mpr hw)), ih.1⟩, ih.2⟩

/-- No piece of a text has what the text is split at. -/
theorem not_isInfix_of_mem_splitText (hd : d ≠ []) : ∀ w ∈ splitText d s, ¬ d <:+: w := by
  intro w hw
  rw [splitText] at hw
  split at hw
  · exact not_isInfix_of_mem_piecesFrom hd 0 w ((List.rdropWhile_prefix _ _).subset hw)
  · next h => rwa [List.mem_singleton.mp hw]

omit [DecidableEq α] in
/-- What is in a text that none of its last characters belong to is in the rest of it. -/
theorem isInfix_of_append (hd : d ≠ []) (hb : ∀ c ∈ b, c ∉ d) (h : d <:+: a ++ b) :
    d <:+: a := by
  induction b using List.reverseRecOn with
  | nil => simpa using h
  | append_singleton b c ih =>
    refine ih (fun e he => hb e (List.mem_append_left _ he)) ?_
    obtain ⟨x, y, hxy⟩ := h
    cases y using List.reverseRecOn with
    | nil =>
      -- The occurrence would end with `c`.
      have hlast := congrArg List.getLast? hxy
      rw [List.append_nil, List.getLast?_append_of_ne_nil _ hd, ← List.append_assoc,
        List.getLast?_concat] at hlast
      exact absurd (List.mem_of_getLast? hlast) (hb c (by simp))
    | append_singleton y e =>
      rw [← List.append_assoc, ← List.append_assoc] at hxy
      exact ⟨x, y, (List.append_inj' hxy rfl).1⟩

end SplitText

/-! ### Fields -/

section Fields

variable {d : α} {s last : List α} {init fields : List (List α)}

/-- The pieces of a text do not have the delimiter. -/
theorem notMem_of_mem_splitOn : ∀ f ∈ s.splitOn d, d ∉ f := by
  induction s with
  | nil => simp [List.splitOn_nil]
  | cons c s ih =>
    obtain ⟨w, ws, hws⟩ := List.exists_cons_of_ne_nil (List.splitOn_ne_nil d s)
    rw [hws, List.forall_mem_cons] at ih
    rw [List.splitOn_cons_eq_if_modifyHead, hws]
    by_cases hc : c = d
    · simpa [hc] using ih
    · simpa [hc, Ne.symm hc] using ih

/-- A text with one delimiter has two pieces. -/
theorem splitOn_pair {a b : List α} (ha : d ∉ a) (hb : d ∉ b) :
    (a ++ d :: b).splitOn d = [a, b] := by
  rw [List.splitOn_append_cons_self_of_not_mem ha, List.splitOn_eq_singleton hb]

/-- The first delimiter of a text is where its first piece ends. -/
theorem idxOf?_append_cons {a b : List α} (ha : d ∉ a) :
    (a ++ d :: b).idxOf? d = some a.length := by
  induction a with
  | nil => simp [List.idxOf?_cons]
  | cons c a ih =>
    obtain ⟨hc, ha⟩ := not_or.mp (List.mem_cons.not.mp ha)
    rw [List.cons_append, List.idxOf?_cons, ih ha, if_neg (by simpa using Ne.symm hc)]
    rfl

theorem splitFields_of_ne_nil (hs : s ≠ []) :
    splitFields d s = (s.splitOn d).rdropWhile List.isEmpty := by
  rw [splitFields]
  split
  · rfl
  · next h =>
    rw [List.splitOn_eq_singleton h, List.rdropWhile_eq_self_iff.mpr]
    simpa using hs

omit [DecidableEq α]

/-- What is in a field is in the text that is put together. -/
theorem mem_intercalate_of_mem {c : α} {f : List α} (hf : f ∈ fields) (hc : c ∈ f) :
    c ∈ [d].intercalate fields := by
  induction fields with
  | nil => exact absurd hf (by simp)
  | cons g fields ih =>
    rcases eq_or_ne fields [] with rfl | hne
    · obtain rfl := List.mem_singleton.mp hf
      simpa using hc
    · rw [List.intercalate_cons_of_ne_nil hne, List.append_assoc, List.mem_append]
      rcases List.mem_cons.mp hf with rfl | hf
      · exact .inl hc
      · exact .inr (List.mem_cons_of_mem _ (ih hf))

/-- A text that is put together has the delimiter and what the fields have. -/
theorem forall_mem_intercalate {p : α → Prop} (hd : p d) (h : ∀ f ∈ fields, ∀ c ∈ f, p c) :
    ∀ c ∈ [d].intercalate fields, p c := by
  induction fields with
  | nil => simp
  | cons f fields ih =>
    obtain ⟨hf, hfields⟩ := List.forall_mem_cons.mp h
    intro c hc
    rcases eq_or_ne fields [] with rfl | hne
    · exact hf c (by simpa using hc)
    · rw [List.intercalate_cons_of_ne_nil hne, List.append_assoc] at hc
      rcases List.mem_append.mp hc with hc | hc
      · exact hf c hc
      · rcases List.mem_cons.mp hc with rfl | hc
        · exact hd
        · exact ih hfields c hc

theorem terminated_append (fields rest : List (List α)) :
    terminated d (fields ++ rest) = terminated d fields ++ terminated d rest :=
  List.flatMap_append

theorem terminated_replicate (k : ℕ) :
    terminated d (List.replicate k []) = List.replicate k d := by
  induction k with
  | zero => rfl
  | succ k ih => simpa [terminated, List.replicate_succ] using ih

/-- Empty fields at the end are delimiters at the end. -/
theorem intercalate_append_replicate (k : ℕ) :
    [d].intercalate (init ++ [last] ++ List.replicate k []) =
      [d].intercalate (init ++ [last]) ++ List.replicate k d := by
  cases k with
  | zero => simp
  | succ k =>
    rw [List.replicate_succ', ← List.append_assoc, intercalate_concat, intercalate_concat,
      List.append_nil, terminated_append, terminated_replicate, terminated_append]
    simp [terminated, List.replicate_succ]

/-- The fields that are left when the empty ones at the end are dropped. -/
theorem rdropWhile_isEmpty_eq_concat_iff (hlast : last ≠ []) :
    fields.rdropWhile List.isEmpty = init ++ [last] ↔
      ∃ k, fields = init ++ [last] ++ List.replicate k [] := by
  constructor
  · intro h
    have hempty : ∀ f ∈ fields.rtakeWhile List.isEmpty, f = [] := fun f hf =>
      List.isEmpty_iff.mp (List.mem_rtakeWhile_imp hf)
    refine ⟨(fields.rtakeWhile List.isEmpty).length, ?_⟩
    rw [← List.eq_replicate_of_mem hempty, ← h, List.rdropWhile_append_rtakeWhile]
  · rintro ⟨k, rfl⟩
    induction k with
    | zero =>
      rw [List.replicate_zero, List.append_nil, List.rdropWhile_concat_neg]
      simpa using hlast
    | succ k ih =>
      rw [List.replicate_succ', ← List.append_assoc, List.rdropWhile_concat_pos _ _ _ rfl, ih]

/-- **The texts that have given fields**, the last of them not empty: these fields with a delimiter
between each two, and any number of delimiters at the end. -/
theorem splitFields_eq_concat_iff [DecidableEq α] (hlast : last ≠ []) :
    splitFields d s = init ++ [last] ↔
      (∃ k, s = [d].intercalate (init ++ [last]) ++ List.replicate k d) ∧
        ∀ f ∈ init ++ [last], d ∉ f := by
  by_cases hs : s = []
  · subst hs
    constructor
    · intro h
      have hinit : init = [] := by
        have hlength := congrArg List.length h
        simpa [splitFields] using hlength
      subst hinit
      exact absurd (List.cons.inj h).1.symm hlast
    · rintro ⟨⟨k, hk⟩, -⟩
      rw [intercalate_concat] at hk
      simp [hlast] at hk
  rw [splitFields_of_ne_nil hs, rdropWhile_isEmpty_eq_concat_iff hlast]
  constructor
  · rintro ⟨k, hk⟩
    refine ⟨⟨k, ?_⟩, fun f hf => ?_⟩
    · rw [← intercalate_append_replicate, ← hk, List.intercalate_splitOn]
    · exact notMem_of_mem_splitOn f (hk ▸ List.mem_append_left _ hf)
  · rintro ⟨⟨k, rfl⟩, hfields⟩
    refine ⟨k, ?_⟩
    rw [← intercalate_append_replicate, List.splitOn_intercalate d _ (by simp)]
    intro f hf
    obtain hf | hf := List.mem_append.mp hf
    · exact hfields f hf
    · rw [List.eq_of_mem_replicate hf]
      exact List.not_mem_nil

end Fields

end Shabdiz
