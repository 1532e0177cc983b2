import Mathlib.Algebra.GroupWithZero.Nat
import Mathlib.Data.Finset.Card
import Mathlib.Data.Finset.Dedup
import Mathlib.Data.List.ModifyLast
import Shabdiz.Text.Lines

/-!
# A set written as one text

A set of fields is written by putting a delimiter after each field, in whatever order the set is
iterated over, and trimming the text; it is read by splitting the text at the delimiter. When the
delimiter is itself one of the characters that are trimmed, trimming takes the last delimiter away,
and with it whatever can be trimmed from the beginning of the first field and from the end of the
last. Which fields these are depends on the order.

## Main definitions

* `trim`, `terminated` — trimming, and fields with a delimiter after each
* `trimEnds` — the fields that are left when the first and the last have been trimmed
* `SurvivesTrim` — the first and the last field have nothing to trim

## Main results

* `splitFields_trim_terminated` — what is read of fields that are written so
* `toFinset_trimEnds_iff` — the set is the same exactly if nothing was trimmed from a field
-/

namespace Shabdiz

variable {α : Type} {p : α → Bool} {d : α} {f last : List α} {fields init rest : List (List α)}

/-- The text without the characters at either end that satisfy `p`. -/
def trim (p : α → Bool) (s : List α) : List α := (s.dropWhile p).rdropWhile p

/-- The fields with a delimiter after each. -/
def terminated (d : α) (fields : List (List α)) : List α := fields.flatMap (· ++ [d])

/-- The fields when the first has been trimmed at its beginning and the last at its end. -/
def trimEnds (p : α → Bool) (fields : List (List α)) : List (List α) :=
  (fields.modifyHead (·.dropWhile p)).modifyLast (·.rdropWhile p)

/-- Whether nothing can be trimmed from the beginning of the first field, nor from the end of the
last. -/
def SurvivesTrim (p : α → Bool) (fields : List (List α)) : Prop :=
  (∀ f ∈ fields.head?, ∀ c ∈ f.head?, p c = false) ∧
    (∀ f ∈ fields.getLast?, ∀ c ∈ f.getLast?, p c = false)

instance : Decidable (SurvivesTrim p fields) := inferInstanceAs (Decidable (_ ∧ _))

/-! ### Trimming -/

theorem dropWhile_eq_self : f.dropWhile p = f ↔ ∀ c ∈ f.head?, p c = false := by
  cases f with
  | nil => simp
  | cons c f =>
    by_cases hc : p c
    · have hne : f.dropWhile p ≠ c :: f := fun heq => by
        have := congrArg List.length heq
        have := (List.dropWhile_sublist p (l := f)).length_le
        simp only [List.length_cons] at *
        omega
      simp [hc, hne]
    · simp [hc]

theorem rdropWhile_eq_self : f.rdropWhile p = f ↔ ∀ c ∈ f.getLast?, p c = false := by
  rw [List.rdropWhile_eq_self_iff]
  cases f using List.reverseRecOn with
  | nil => simp
  | append_singleton f c => simp

/-- A field that can not be trimmed away keeps what follows it. -/
theorem dropWhile_append_of_any (h : f.any (!p ·) = true) (s : List α) :
    (f ++ s).dropWhile p = f.dropWhile p ++ s := by
  have hne : f.dropWhile p ≠ [] := by
    rw [ne_eq, List.dropWhile_eq_nil_iff]
    simpa using h
  rw [List.dropWhile_append, if_neg (by simpa using hne)]

theorem rdropWhile_append_of_any (h : f.any (!p ·) = true) (s : List α) :
    (s ++ f).rdropWhile p = s ++ f.rdropWhile p := by
  have hreverse : f.reverse.any (!p ·) = true := by simpa using h
  rw [List.rdropWhile, List.reverse_append, dropWhile_append_of_any hreverse, List.reverse_append,
    List.reverse_reverse]
  rfl

theorem any_dropWhile : (f.dropWhile p).any (!p ·) = f.any (!p ·) := by
  induction f with
  | nil => rfl
  | cons c f ih => by_cases hc : p c <;> simp [hc, ih]

theorem any_rdropWhile : (f.rdropWhile p).any (!p ·) = f.any (!p ·) := by
  rw [List.rdropWhile, List.any_reverse, any_dropWhile, List.any_reverse]

/-- Something is left of a text exactly if it cannot be trimmed away. -/
theorem isEmpty_trim (s : List α) : (!(trim p s).isEmpty) = s.any (!p ·) := by
  have hany : (trim p s).any (!p ·) = s.any (!p ·) := any_rdropWhile.trans any_dropWhile
  cases hs : s.any (!p ·) with
  | true =>
    have hne : trim p s ≠ [] := by
      intro hnil
      rw [hnil, hs] at hany
      cases hany
    simpa using hne
  | false =>
    have hall : s.dropWhile p = [] := by
      rw [List.dropWhile_eq_nil_iff]
      simpa using hs
    simp [trim, hall]

theorem trim_subset (s : List α) : trim p s ⊆ s := fun _ hc =>
  (List.dropWhile_sublist p).subset ((List.rdropWhile_prefix p _).subset hc)

/-! ### Writing and reading -/

theorem intercalate_concat :
    [d].intercalate (init ++ [last]) = terminated d init ++ last := by
  induction init with
  | nil => simp [terminated, List.intercalate]
  | cons f init ih =>
    rw [List.cons_append, List.intercalate_cons_of_ne_nil (by simp), ih]
    simp [terminated]

theorem trimEnds_singleton : trimEnds p [last] = [trim p last] := rfl

theorem trimEnds_cons_concat :
    trimEnds p (f :: (init ++ [last])) = f.dropWhile p :: (init ++ [last.rdropWhile p]) := by
  rw [trimEnds, List.modifyHead_cons, ← List.cons_append, List.modifyLast_concat,
    List.cons_append]

/-- Every list of fields but the empty one is a single field, or has a first and a last. -/
theorem fields_cases (hne : fields ≠ []) :
    (∃ last, fields = [last]) ∨ ∃ f init last, fields = f :: (init ++ [last]) := by
  cases fields using List.reverseRecOn with
  | nil => exact absurd rfl hne
  | append_singleton init last =>
    cases init with
    | nil => exact .inl ⟨last, rfl⟩
    | cons f init => exact .inr ⟨f, init, last, rfl⟩

theorem getLast?_cons_concat : (f :: (init ++ [last])).getLast? = some last := by
  rw [← List.cons_append, List.getLast?_concat]

/-- **What trimming does** to fields that cannot be trimmed away: it takes the last delimiter, and
something of the first field and of the last. -/
theorem trim_terminated (hd : p d = true) (h : ∀ f ∈ fields, f.any (!p ·) = true)
    (hne : fields ≠ []) :
    trim p (terminated d fields) = [d].intercalate (trimEnds p fields) := by
  obtain ⟨last, rfl⟩ | ⟨f, init, last, rfl⟩ := fields_cases hne
  · have hlast := h last (List.mem_singleton_self _)
    have htext : terminated d [last] = last ++ [d] := by simp [terminated]
    rw [htext, trim, dropWhile_append_of_any hlast, List.rdropWhile_concat_pos _ _ _ hd,
      trimEnds_singleton, trim]
    simp [List.intercalate]
  · have hf := h f (List.mem_cons_self ..)
    have hlast := h last (by simp)
    have htext : terminated d (f :: (init ++ [last])) =
        f ++ (d :: (terminated d init ++ last ++ [d])) := by
      simp [terminated]
    have hleft : f.dropWhile p ++ (d :: (terminated d init ++ last ++ [d])) =
        terminated d (f.dropWhile p :: init) ++ last ++ [d] := by
      simp [terminated]
    rw [htext, trim, dropWhile_append_of_any hf, hleft, List.rdropWhile_concat_pos _ _ _ hd,
      rdropWhile_append_of_any hlast, trimEnds_cons_concat, ← List.cons_append,
      intercalate_concat]

/-- Trimmed fields still cannot be trimmed away, and have no delimiter. -/
theorem forall_mem_trimEnds (h : ∀ f ∈ fields, f.any (!p ·) = true ∧ d ∉ f) (hne : fields ≠ []) :
    ∀ f ∈ trimEnds p fields, f.any (!p ·) = true ∧ d ∉ f := by
  have hkept {f g : List α} (hany : g.any (!p ·) = f.any (!p ·)) (hsub : g ⊆ f)
      (hf : f.any (!p ·) = true ∧ d ∉ f) : g.any (!p ·) = true ∧ d ∉ g :=
    ⟨hany.trans hf.1, fun hd => hf.2 (hsub hd)⟩
  have hleft (f : List α) : f.dropWhile p ⊆ f := (List.dropWhile_sublist p).subset
  have hright (f : List α) : f.rdropWhile p ⊆ f := (List.rdropWhile_prefix p f).subset
  obtain ⟨last, rfl⟩ | ⟨f, init, last, rfl⟩ := fields_cases hne
  · rw [trimEnds_singleton, List.forall_mem_singleton]
    exact hkept (any_rdropWhile.trans any_dropWhile) (fun _ hc => hleft _ (hright _ hc))
      (h last (List.mem_singleton_self _))
  · rw [trimEnds_cons_concat, List.forall_mem_cons]
    refine ⟨hkept any_dropWhile (hleft f) (h f (List.mem_cons_self ..)), fun g hg => ?_⟩
    obtain hg | hg := List.mem_append.mp hg
    · exact h g (by simp [hg])
    · obtain rfl := List.mem_singleton.mp hg
      exact hkept any_rdropWhile (hright last) (h last (by simp))

theorem length_trimEnds : (trimEnds p fields).length = fields.length := by
  by_cases hne : fields = []
  · subst hne
    rfl
  obtain ⟨last, rfl⟩ | ⟨f, init, last, rfl⟩ := fields_cases hne
  · rfl
  · simp [trimEnds_cons_concat]

theorem trimEnds_of_survivesTrim (h : SurvivesTrim p fields) : trimEnds p fields = fields := by
  by_cases hne : fields = []
  · subst hne
    rfl
  obtain ⟨last, rfl⟩ | ⟨f, init, last, rfl⟩ := fields_cases hne
  · have hleft := dropWhile_eq_self.mpr (h.1 last rfl)
    have hright := rdropWhile_eq_self.mpr (h.2 last rfl)
    rw [trimEnds_singleton, trim, hleft, hright]
  · have hleft := dropWhile_eq_self.mpr (h.1 f rfl)
    have hright := rdropWhile_eq_self.mpr (h.2 last getLast?_cons_concat)
    rw [trimEnds_cons_concat, hleft, hright]

/-- Fields that are as long together when they have been trimmed were not trimmed. -/
theorem survivesTrim_of_sum_length
    (h : ((trimEnds p fields).map List.length).sum = (fields.map List.length).sum) :
    SurvivesTrim p fields := by
  have hleft (f : List α) := (List.dropWhile_sublist p (l := f))
  have hright (f : List α) := (List.rdropWhile_prefix p f).sublist
  by_cases hne : fields = []
  · subst hne
    simp [SurvivesTrim]
  obtain ⟨last, rfl⟩ | ⟨f, init, last, rfl⟩ := fields_cases hne
  · simp only [trimEnds_singleton, trim, List.map_cons, List.map_nil, List.sum_cons,
      List.sum_nil] at h
    have hle := (hleft last).length_le
    have hle' := (hright (last.dropWhile p)).length_le
    have hl := (hleft last).eq_of_length (by omega)
    rw [hl] at h
    have hr := (hright last).eq_of_length (by omega)
    simpa [SurvivesTrim] using ⟨dropWhile_eq_self.mp hl, rdropWhile_eq_self.mp hr⟩
  · simp only [trimEnds_cons_concat, List.map_cons, List.map_append, List.map_nil, List.sum_cons,
      List.sum_append, List.sum_nil] at h
    have hle := (hleft f).length_le
    have hle' := (hright last).length_le
    have hl := (hleft f).eq_of_length (by omega)
    have hr := (hright last).eq_of_length (by omega)
    refine ⟨fun g hg => ?_, fun g hg => ?_⟩
    · obtain rfl : f = g := by simpa using hg
      exact dropWhile_eq_self.mp hl
    · obtain rfl : last = g := Option.some.inj (getLast?_cons_concat.symm.trans hg)
      exact rdropWhile_eq_self.mp hr

theorem splitOn_terminated [BEq α] [LawfulBEq α] (h : ∀ f ∈ fields, d ∉ f) :
    (terminated d fields).splitOn d = fields ++ [[]] := by
  have hconcat : [d].intercalate (fields ++ [[]]) = terminated d fields ++ [] :=
    intercalate_concat
  rw [← List.append_nil (terminated d fields), ← hconcat]
  refine List.splitOn_intercalate d (fun f hf => ?_) (by simp)
  obtain hf | hf := List.mem_append.mp hf
  · exact h f hf
  · rw [List.mem_singleton.mp hf]
    exact List.not_mem_nil

variable [DecidableEq α]

/-- Fields that are not empty and do not have the delimiter are read back. -/
theorem splitFields_intercalate (hne : fields ≠ []) (h : ∀ f ∈ fields, f ≠ [] ∧ d ∉ f) :
    splitFields d ([d].intercalate fields) = fields := by
  have hsplit := List.splitOn_intercalate d (fun f hf => (h f hf).2) hne
  have hlast : fields.rdropWhile List.isEmpty = fields := by
    rw [List.rdropWhile_eq_self_iff]
    intro hne'
    simpa using (h _ (List.getLast_mem hne')).1
  rw [splitFields, hsplit, hlast]
  cases fields with
  | nil => exact absurd rfl hne
  | cons f rest =>
    cases rest with
    | nil =>
      rw [if_neg]
      · simp [List.intercalate]
      · simpa [List.intercalate] using (h f (List.mem_singleton_self _)).2
    | cons g rest => rw [if_pos (by simp [List.intercalate_cons_cons])]

/-- **What is read of fields that are written so**: the same fields, but for what was trimmed from
the first and the last. -/
theorem splitFields_trim_terminated (hd : p d = true)
    (h : ∀ f ∈ fields, f.any (!p ·) = true ∧ d ∉ f) (hne : fields ≠ []) :
    splitFields d (trim p (terminated d fields)) = trimEnds p fields := by
  rw [trim_terminated hd (fun f hf => (h f hf).1) hne]
  refine splitFields_intercalate ?_ fun f hf => ?_
  · rw [ne_eq, ← List.length_eq_zero_iff, length_trimEnds, List.length_eq_zero_iff]
    exact hne
  · obtain ⟨hany, hd⟩ := forall_mem_trimEnds h hne f hf
    refine ⟨?_, hd⟩
    rintro rfl
    cases hany

/-- **A set written so is the same when it is read** exactly if nothing was trimmed from its first
field or its last. -/
theorem toFinset_trimEnds_iff (hnodup : fields.Nodup) :
    (trimEnds p fields).toFinset = fields.toFinset ↔ SurvivesTrim p fields := by
  constructor
  · intro h
    -- The two lists have the same elements and the same length, so neither has one twice.
    have hcard : (trimEnds p fields).dedup.length = (trimEnds p fields).length := by
      rw [← List.card_toFinset, h, List.toFinset_card_of_nodup hnodup, length_trimEnds]
    have hnodup' : (trimEnds p fields).Nodup :=
      List.dedup_eq_self.mp ((List.dedup_sublist _).eq_of_length hcard)
    have hperm := List.perm_of_nodup_nodup_toFinset_eq hnodup' hnodup h
    exact survivesTrim_of_sum_length (hperm.map List.length).sum_nat
  · intro h
    rw [trimEnds_of_survivesTrim h]

end Shabdiz
