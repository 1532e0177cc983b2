import Mathlib.Data.List.Basic
import Mathlib.Data.List.Sublists

/-!
# The order of events in a history

A history is a list of events, oldest first, and only ever grows at its end. "`a` happened, and
after that `b`, and after that `c`" is `InOrder [a, b, c] log`: the listed events are a sublist of
the history.

## Main results

* `InOrder.append` — what has happened stays so
* `inOrder_concat` — how one more event can complete a pattern
* `concat_eq_append_cons` — where an event is in a history with one more event
-/

namespace Shabdiz

variable {α : Type*} {es log l : List α} {a b e : α}

/-- The events of `es` happened, in the order listed. -/
def InOrder (es log : List α) : Prop := es.Sublist log

instance [DecidableEq α] (es log : List α) : Decidable (InOrder es log) :=
  inferInstanceAs (Decidable (es.Sublist log))

theorem InOrder.append (h : InOrder es log) (l : List α) : InOrder es (log ++ l) :=
  h.trans (List.sublist_append_left log l)

theorem InOrder.mem (h : InOrder es log) (he : e ∈ es) : e ∈ log := h.subset he

@[simp] theorem inOrder_nil : InOrder [] log := List.nil_sublist log

@[simp] theorem inOrder_singleton : InOrder [a] log ↔ a ∈ log := List.singleton_sublist

@[simp] theorem not_inOrder_cons_nil : ¬ InOrder (a :: es) [] := by simp [InOrder]

/-- **One more event.** A pattern ending in `b` matches `log ++ [e]` when it matches `log`
already, or when what precedes `b` does and `e` is `b`. -/
theorem inOrder_concat : InOrder (es ++ [b]) (log ++ [e]) ↔
    InOrder (es ++ [b]) log ∨ (InOrder es log ∧ b = e) := by
  constructor
  · intro h
    obtain ⟨l₁, l₂, heq, h₁, h₂⟩ := List.sublist_append_iff.mp h
    rcases List.eq_nil_or_concat' l₂ with rfl | ⟨l, x, rfl⟩
    · rw [List.append_nil] at heq
      exact Or.inl (heq ▸ h₁)
    · rw [← List.append_assoc] at heq
      obtain ⟨rfl, hbx⟩ := List.append_inj' heq rfl
      have hlen := h₂.length_le
      obtain rfl : l = [] := by simpa using hlen
      refine Or.inr ⟨by simpa [InOrder] using h₁, ?_⟩
      have hx : x = e := by simpa using h₂
      exact (List.singleton_inj.mp hbx).trans hx
  · rintro (h | ⟨h, rfl⟩)
    · exact h.append [e]
    · exact List.Sublist.append_right h [b]

theorem inOrder_pair_concat :
    InOrder [a, b] (log ++ [e]) ↔ InOrder [a, b] log ∨ (a ∈ log ∧ b = e) := by
  have h : InOrder ([a] ++ [b]) (log ++ [e]) ↔ _ := inOrder_concat
  simpa using h

/-- Where an event is in a history with one more event: it is the last one, or it was there
before. -/
theorem concat_eq_append_cons {before after : List α} (h : log ++ [e] = before ++ a :: after) :
    (after = [] ∧ before = log ∧ a = e) ∨
      ∃ after', after = after' ++ [e] ∧ log = before ++ a :: after' := by
  rcases List.eq_nil_or_concat' after with rfl | ⟨after', x, rfl⟩
  · obtain ⟨hlog, hlast⟩ := List.append_inj' h rfl
    exact Or.inl ⟨rfl, hlog.symm, (List.singleton_inj.mp hlast).symm⟩
  · have h' : log ++ [e] = (before ++ a :: after') ++ [x] := by
      rw [h]
      simp
    obtain ⟨hlog, hlast⟩ := List.append_inj' h' rfl
    exact Or.inr ⟨after', by rw [List.singleton_inj.mp hlast], hlog⟩

end Shabdiz
