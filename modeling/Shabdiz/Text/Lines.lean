import Mathlib.Data.List.DropRight

/-!
# Lines and fields of a text

A text is a list of characters. `nextLine` takes its first line as a `Scanner` does, at the first
line separator or, for a last line that is not terminated, at the end of the text. `splitFields`
takes a text apart at a delimiter as `String.split` does: a text without the delimiter is its only
field, and the empty fields at the end are dropped.

## Main definitions

* `isLineSeparator`, `LineSeparator`, `Unbroken` — where lines end, and texts of one line
* `nextLine` — the first line of a text and what follows it
* `firstLine`, `lastLine` — the lines at the ends of a text
* `splitFields` — the fields of a text

## Main results

* `nextLine_terminated` — a terminated line is read back
* `getElem?_one_splitFields` — the second field of a text that has the delimiter
-/

namespace Shabdiz

/-! ### Lines -/

/-- The characters a line ends at. -/
def isLineSeparator (c : Char) : Bool :=
  c = '\n' || c = '\r' || c = '\u0085' || c = '\u2028' || c = '\u2029'

/-- What a platform ends a printed line with. -/
inductive LineSeparator where
  | lf
  | crlf
deriving DecidableEq

/-- The characters of a line separator. -/
def LineSeparator.chars : LineSeparator → List Char
  | .lf => ['\n']
  | .crlf => ['\r', '\n']

/-- A text of one line. -/
def Unbroken (s : List Char) : Prop :=
  ∀ c ∈ s, isLineSeparator c = false

instance (s : List Char) : Decidable (Unbroken s) :=
  decidable_of_iff (s.all (!isLineSeparator ·) = true) (by simp [Unbroken])

@[simp] theorem unbroken_append {s t : List Char} :
    Unbroken (s ++ t) ↔ Unbroken s ∧ Unbroken t := by
  simp only [Unbroken, List.mem_append, or_imp, forall_and]

@[simp] theorem unbroken_cons {c : Char} {s : List Char} :
    Unbroken (c :: s) ↔ isLineSeparator c = false ∧ Unbroken s := by
  simp only [Unbroken, List.mem_cons, forall_eq_or_imp]

/-- What follows the line separator a text begins with; `\r\n` is one separator. -/
def dropSeparator : List Char → List Char
  | '\r' :: '\n' :: s => s
  | s => s.tail

/-- The first line of a text, without its separator, and what follows it; there is none in an
empty text. -/
def nextLine (s : List Char) : Option (List Char × List Char) :=
  if s = [] then none
  else some (s.takeWhile (!isLineSeparator ·), dropSeparator (s.dropWhile (!isLineSeparator ·)))

theorem length_dropSeparator_lt {s : List Char} (hs : s ≠ []) :
    (dropSeparator s).length < s.length := by
  fun_cases dropSeparator s
  · simp only [List.length_cons]
    omega
  · have := List.length_pos_of_ne_nil hs
    rw [List.length_tail]
    omega

/-- Every line read takes something away. -/
theorem length_lt_of_nextLine {s line rest : List Char} (h : nextLine s = some (line, rest)) :
    rest.length < s.length := by
  obtain ⟨hs, h⟩ := Option.ite_none_left_eq_some.mp h
  obtain ⟨-, rfl⟩ := Prod.mk.inj (Option.some.inj h)
  have hsplit := congrArg List.length
    (List.takeWhile_append_dropWhile (p := (!isLineSeparator ·)) (l := s))
  rw [List.length_append] at hsplit
  obtain hnil | hnil := eq_or_ne (s.dropWhile (!isLineSeparator ·)) []
  · rw [hnil]
    exact List.length_pos_of_ne_nil hs
  · have := length_dropSeparator_lt hnil
    omega

/-- **A terminated line is read back**, and the text goes on after its separator. -/
theorem nextLine_terminated {line : List Char} (h : Unbroken line) (sep : LineSeparator)
    (rest : List Char) : nextLine (line ++ sep.chars ++ rest) = some (line, rest) := by
  have hp : ∀ c ∈ line, (!isLineSeparator c) = true := fun c hc => by rw [h c hc]; rfl
  rw [nextLine, if_neg (by cases sep <;> simp [LineSeparator.chars]), List.append_assoc,
    List.takeWhile_append_of_pos hp, List.dropWhile_append_of_pos hp]
  cases sep <;> simp [LineSeparator.chars, isLineSeparator, dropSeparator]

/-! ### First and last lines -/

/-- The first line of a text. -/
def firstLine (s : List Char) : List Char :=
  s.takeWhile (!isLineSeparator ·)

/-- The last line of a text. -/
def lastLine (s : List Char) : List Char :=
  s.rtakeWhile (!isLineSeparator ·)

section Ends

variable {s : List Char} {c d : Char}

theorem takeWhile_append_cons {p : Char → Bool} (hc : p c = false) (s v : List Char) :
    (s ++ c :: v).takeWhile p = s.takeWhile p := by
  induction s with
  | nil => simp [hc]
  | cons a s ih =>
    rw [List.cons_append, List.takeWhile_cons, List.takeWhile_cons, ih]

theorem lastLine_of_unbroken (h : Unbroken s) : lastLine s = s := by
  refine List.rtakeWhile_eq_self_iff.mpr fun c hc => ?_
  rw [h c hc]
  rfl

theorem unbroken_lastLine (s : List Char) : Unbroken (lastLine s) := by
  intro c hc
  simpa using List.mem_rtakeWhile_imp hc

theorem lastLine_append_cons (hc : isLineSeparator c = true) (s v : List Char) :
    lastLine (s ++ c :: v) = lastLine v := by
  have hrev : (s ++ c :: v).reverse = v.reverse ++ c :: s.reverse := by simp
  rw [lastLine, lastLine, List.rtakeWhile, List.rtakeWhile, hrev,
    takeWhile_append_cons (by rw [hc]; rfl)]

theorem exists_of_not_unbroken (h : ¬ Unbroken s) :
    ∃ a c b, s = a ++ c :: b ∧ Unbroken a ∧ isLineSeparator c = true := by
  have hne : s.dropWhile (!isLineSeparator ·) ≠ [] := by
    intro hnil
    exact h fun c hc => by simpa using List.dropWhile_eq_nil_iff.mp hnil c hc
  refine ⟨s.takeWhile (!isLineSeparator ·), (s.dropWhile (!isLineSeparator ·)).head hne,
    (s.dropWhile (!isLineSeparator ·)).tail, ?_, fun c hc => ?_, ?_⟩
  · rw [List.cons_head_tail hne, List.takeWhile_append_dropWhile]
  · simpa using List.mem_takeWhile_imp hc
  · simpa using List.head_dropWhile_not (!isLineSeparator ·) hne

/-- The first line of a text that has a separator. -/
theorem nextLine_append_cons (hs : Unbroken s) (hc : isLineSeparator c = true) (v : List Char) :
    nextLine (s ++ c :: v) = some (s, dropSeparator (c :: v)) := by
  have hp : ∀ c ∈ s, (!isLineSeparator c) = true := fun c hc => by rw [hs c hc]; rfl
  rw [nextLine, if_neg (by simp), List.takeWhile_append_of_pos hp, List.dropWhile_append_of_pos hp,
    List.takeWhile_cons_of_neg (by simp [hc]), List.dropWhile_cons_of_neg (by simp [hc]),
    List.append_nil]

/-- A carriage return and a line feed after it are one separator. -/
theorem dropSeparator_cons (c : Char) (s : List Char) :
    dropSeparator (c :: s) = s ∨ ∃ t, s = '\n' :: t ∧ c = '\r' ∧ dropSeparator (c :: s) = t := by
  generalize hcs : c :: s = w
  fun_cases dropSeparator w with
  | case1 t =>
    obtain ⟨rfl, rfl⟩ := List.cons.inj hcs
    exact Or.inr ⟨t, rfl, rfl, rfl⟩
  | case2 => exact Or.inl (by rw [← hcs, List.tail_cons])

theorem lastLine_dropSeparator (c : Char) (s : List Char) :
    lastLine (dropSeparator (c :: s)) = lastLine s := by
  obtain h | ⟨t, rfl, -, h⟩ := dropSeparator_cons c s
  · rw [h]
  · rw [h, ← List.nil_append ('\n' :: t), lastLine_append_cons rfl]

theorem dropSeparator_append_cons (c : Char) (s : List Char) (hd : d ≠ '\n') (v : List Char) :
    dropSeparator (c :: (s ++ d :: v)) = dropSeparator (c :: s) ++ d :: v := by
  cases s with
  | nil => simp [dropSeparator, hd]
  | cons b s =>
    obtain h | ⟨t, hb, rfl, h⟩ := dropSeparator_cons c (b :: s)
    · obtain h' | ⟨t, hb, rfl, -⟩ := dropSeparator_cons c (b :: s ++ d :: v)
      · rw [h, h']
      · obtain ⟨rfl, -⟩ := List.cons.inj hb
        exact absurd (congrArg List.length h) (by simp [dropSeparator])
    · obtain ⟨rfl, rfl⟩ := List.cons.inj hb
      rfl

theorem dropSeparator_suffix (s : List Char) : dropSeparator s <:+ s := by
  fun_cases dropSeparator s with
  | case1 s => exact ⟨['\r', '\n'], rfl⟩
  | case2 s => exact List.tail_suffix s

/-- A line and what follows it are apart. -/
theorem count_nextLine {line rest : List Char} (h : nextLine s = some (line, rest)) (d : Char) :
    line.count d + rest.count d ≤ s.count d := by
  obtain ⟨-, h⟩ := Option.ite_none_left_eq_some.mp h
  obtain ⟨rfl, rfl⟩ := Prod.mk.inj (Option.some.inj h)
  have hsplit := congrArg (List.count d)
    (List.takeWhile_append_dropWhile (p := (!isLineSeparator ·)) (l := s))
  have hdrop := (dropSeparator_suffix (s.dropWhile (!isLineSeparator ·))).sublist.count_le d
  rw [List.count_append] at hsplit
  omega

end Ends

/-! ### Fields -/

section Fields

variable {α : Type} [DecidableEq α] {d : α} {s k v : List α}

/-- The fields of a text: the whole text when it does not have the delimiter, and otherwise its
pieces without the empty ones at the end. -/
def splitFields (d : α) (s : List α) : List (List α) :=
  if d ∈ s then (s.splitOn d).rdropWhile List.isEmpty else [s]

theorem getElem?_rdropWhile {β : Type} (p : β → Bool) (l : List β) (i : ℕ) :
    (l.rdropWhile p)[i]? = if (l.drop i).any (!p ·) then l[i]? else none := by
  induction l using List.reverseRecOn with
  | nil => simp
  | append_singleton l x ih =>
    by_cases hx : p x
    · rw [List.rdropWhile_concat_pos _ _ _ hx, ih]
      obtain hi | hi := Nat.lt_or_ge i l.length
      · simp [List.drop_append_of_le_length hi.le, List.getElem?_append_left hi, hx]
      · have hdrop : (l ++ [x]).drop i ⊆ [x] := by
          rw [List.drop_append, List.drop_eq_nil_of_le hi, List.nil_append]
          exact List.drop_subset _ _
        rw [if_neg, if_neg]
        · intro hany
          obtain ⟨y, hy, hpy⟩ := List.any_eq_true.mp hany
          rw [List.mem_singleton.mp (hdrop hy), hx] at hpy
          exact absurd hpy (by decide)
        · simp [List.drop_eq_nil_of_le hi]
    · rw [List.rdropWhile_concat_neg _ _ _ hx]
      obtain hi | hi := Nat.lt_or_ge i (l ++ [x]).length
      · rw [if_pos]
        refine List.any_eq_true.mpr ⟨x, ?_, by simpa using hx⟩
        rw [List.length_append, List.length_singleton] at hi
        rw [List.drop_append_of_le_length (by omega)]
        exact List.mem_append_right _ (List.mem_singleton_self x)
      · rw [List.getElem?_eq_none hi, ite_self]

/-- The first piece of a text goes up to its first delimiter. -/
theorem getElem?_zero_splitOn (d : α) (s : List α) :
    (s.splitOn d)[0]? = some (s.takeWhile (· ≠ d)) := by
  induction s with
  | nil => rfl
  | cons c s ih =>
    obtain ⟨w, ws, hws⟩ := List.exists_cons_of_ne_nil (List.splitOnP_ne_nil (· == d) s)
    rw [List.splitOn, hws, List.getElem?_cons_zero] at ih
    rw [List.splitOn, List.splitOnP_cons_eq_if_modifyHead, hws]
    by_cases hc : c = d
    · simp [hc]
    · simp [hc, Option.some.inj ih]

/-- Some piece of a text is not empty when the text has more than delimiters. -/
theorem any_splitOn : (s.splitOn d).any (!·.isEmpty) = s.any (· ≠ d) := by
  induction s with
  | nil => simp [List.splitOn]
  | cons c s ih =>
    rw [List.splitOn] at ih ⊢
    obtain ⟨w, ws, hws⟩ := List.exists_cons_of_ne_nil (List.splitOnP_ne_nil (· == d) s)
    rw [List.splitOnP_cons_eq_if_modifyHead]
    by_cases hc : c = d
    · simp [hc, ih]
    · simp [hc, hws]

/-- **The second field** of a text goes from its first delimiter to the next, if anything but
delimiters comes after the first. -/
theorem getElem?_one_splitFields (hk : d ∉ k) :
    (splitFields d (k ++ d :: v))[1]? =
      if v.any (· ≠ d) then some (v.takeWhile (· ≠ d)) else none := by
  have hpieces : (k ++ d :: v).splitOn d = k :: v.splitOn d :=
    List.splitOnP_append_cons_of_forall_mem (p := (· == d))
      (fun c hc => beq_false_of_ne (ne_of_mem_of_not_mem hc hk)) d (beq_self_eq_true d) v
  rw [splitFields, if_pos (by simp), hpieces, getElem?_rdropWhile, List.drop_succ_cons,
    List.drop_zero, List.getElem?_cons_succ, getElem?_zero_splitOn, any_splitOn]

end Fields

end Shabdiz
