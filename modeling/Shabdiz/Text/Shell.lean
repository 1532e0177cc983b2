import Mathlib.Data.List.Basic

/-!
# Words of a shell command

A POSIX shell takes a simple command apart into words at its unquoted blanks. Inside single quotes
every character is literal; inside double quotes `$` and the backquote still introduce an expansion,
and a backslash quotes only `$`, the backquote, `"` and another backslash, and removes a newline.
`tokenise` is this reading of a text of one command. It gives no words for a text that does
anything more: one that has an expansion, an operator or a newline, or a quote that is not closed.
What POSIX leaves unspecified counts as doing more: a `$` that no name follows, and a backslash at
the end of the text.

The question asked here is when a list of words survives being written in double quotes with
nothing escaped. The reader never adds a character, and each of `\\`, `'` and `#` is lost wherever
it has a meaning of its own. So if the words that are read back are the ones written, then none of
them had such a meaning, and the quotes in the text are those that were written around the words.

## Main definitions

* `Shell.Mode`, `Shell.step`, `Shell.tokenise` — the reader, one character at a time
* `Shell.doubleQuoted`, `Shell.spaced` — words written in double quotes
* `Shell.IsLiteral` — a word that means itself in double quotes

## Main results

* `Shell.keeps_run` — nothing is added to the characters that can be lost
* `Shell.finish_doubleQuoted_iff` — words are read back exactly if each of them is literal
-/

namespace Shabdiz

namespace Shell

/-! ### The reader -/

/-- Where the reader is: between words, or in one, with what has been read of it. -/
inductive Mode where
  | blank
  | plain (word : List Char)
  /-- After an unquoted backslash; the word may not have begun. -/
  | backslash (word : Option (List Char))
  | single (word : List Char)
  | double (word : List Char)
  /-- After a backslash in double quotes. -/
  | doubleBackslash (word : List Char)
  | comment
deriving DecidableEq

/-- The words read so far, and where the reader stands. -/
structure State where
  words : List (List Char)
  mode : Mode
deriving DecidableEq

/-- A blank, which separates words. -/
def isBlank (c : Char) : Bool := c = ' ' || c = '\t'

/-- The characters that end a word and do more: a newline and the operators. -/
def isOperator (c : Char) : Bool :=
  c = '\n' || c = '&' || c = '|' || c = ';' || c = '<' || c = '>' || c = '(' || c = ')'

/-- The unquoted characters that introduce an expansion anywhere in a word. -/
def isExpansion (c : Char) : Bool :=
  c = '$' || c = '`' || c = '*' || c = '?' || c = '['

/-- The characters that a backslash quotes inside double quotes. -/
def isDoubleSpecial (c : Char) : Bool :=
  c = '$' || c = '`' || c = '"' || c = '\\'

/-- An unquoted character that is part of `word`. -/
def stepWord (words : List (List Char)) (word : Option (List Char)) (c : Char) : Option State :=
  if isOperator c || isExpansion c then none
  else if c = '"' then some ⟨words, .double (word.getD [])⟩
  else if c = '\'' then some ⟨words, .single (word.getD [])⟩
  else if c = '\\' then some ⟨words, .backslash word⟩
  else some ⟨words, .plain (word.getD [] ++ [c])⟩

/-- Read one character; `none` if the text does more than pass words. -/
def step (s : State) (c : Char) : Option State :=
  match s.mode with
  | .blank =>
    if isBlank c then some s
    else if c = '#' then some { s with mode := .comment }
    else if c = '~' then none
    else stepWord s.words none c
  | .plain word =>
    if isBlank c then some ⟨s.words ++ [word], .blank⟩
    else stepWord s.words (some word) c
  | .backslash word =>
    if c = '\n' then some { s with mode := word.elim .blank .plain }
    else some { s with mode := .plain (word.getD [] ++ [c]) }
  | .single word =>
    some { s with mode := if c = '\'' then .plain word else .single (word ++ [c]) }
  | .double word =>
    if c = '$' || c = '`' then none
    else if c = '"' then some { s with mode := .plain word }
    else if c = '\\' then some { s with mode := .doubleBackslash word }
    else some { s with mode := .double (word ++ [c]) }
  | .doubleBackslash word =>
    if c = '\n' then some { s with mode := .double word }
    else if isDoubleSpecial c then some { s with mode := .double (word ++ [c]) }
    else some { s with mode := .double (word ++ ['\\', c]) }
  | .comment => if c = '\n' then none else some s

/-- Read a text. -/
def run : State → List Char → Option State
  | s, [] => some s
  | s, c :: cs => (step s c).bind fun s' => run s' cs

/-- The words of a text that has been read to its end. -/
def finish (s : State) : Option (List (List Char)) :=
  match s.mode with
  | .blank | .comment => some s.words
  | .plain word => some (s.words ++ [word])
  | _ => none

/-- The words of a text, which must do no more than pass them. -/
def tokenise (text : List Char) : Option (List (List Char)) :=
  (run ⟨[], .blank⟩ text).bind finish

theorem run_append (s : State) (cs ds : List Char) :
    run s (cs ++ ds) = (run s cs).bind fun s' => run s' ds := by
  induction cs generalizing s with
  | nil => rfl
  | cons c cs ih =>
    simp only [List.cons_append, run, Option.bind_assoc]
    congr 1
    funext s'
    exact ih s'

/-- The words of a text whose beginning has been read. -/
theorem tokenise_append {s : State} {text : List Char} (h : run ⟨[], .blank⟩ text = some s)
    (rest : List Char) : tokenise (text ++ rest) = (run s rest).bind finish := by
  rw [tokenise, run_append, h]
  rfl

/-! ### What is lost -/

/-- The characters that are lost where they have a meaning. -/
def isLost (c : Char) : Bool := c = '\\' || c = '\'' || c = '#'

/-- How many characters there are that can be lost. -/
def weight (cs : List Char) : Nat := cs.countP isLost

@[simp] theorem weight_nil : weight [] = 0 := rfl

@[simp] theorem weight_append (cs ds : List Char) :
    weight (cs ++ ds) = weight cs + weight ds := List.countP_append

theorem weight_cons (c : Char) (cs : List Char) :
    weight (c :: cs) = (if isLost c then 1 else 0) + weight cs := by
  rw [weight, List.countP_cons, Nat.add_comm]
  rfl

/-- What has been read so far, and a backslash that may still turn out to be literal. -/
def Mode.weight : Mode → Nat
  | blank | comment => 0
  | plain word | single word | double word => Shell.weight word
  | backslash word => Shell.weight (word.getD [])
  | doubleBackslash word => Shell.weight word + 1

/-- How much of what has been read could have been lost. -/
def State.weight (s : State) : Nat := Shell.weight s.words.flatten + s.mode.weight

theorem weight_mk (words : List (List Char)) (mode : Mode) :
    State.weight ⟨words, mode⟩ = weight words.flatten + mode.weight := rfl

/-- Whether no quote is in what has been read so far, and nothing but double quotes is open. -/
def Mode.Unquoted : Mode → Prop
  | blank => True
  | plain word | double word | doubleBackslash word => '"' ∉ word
  | _ => False

/-- No quote is in what has been read, and nothing but double quotes is open. -/
def State.Unquoted (s : State) : Prop := '"' ∉ s.words.flatten ∧ s.mode.Unquoted

/-- A step of the reader adds nothing to what can be lost; and if it loses nothing, it does not
pass a quote either. -/
def Keeps (s t : State) (c : Char) : Prop :=
  t.weight ≤ s.weight + weight [c] ∧ (t.weight = s.weight + weight [c] → s.Unquoted → t.Unquoted)

theorem keeps_stepWord {words : List (List Char)} {word : Option (List Char)} {c : Char}
    {s t : State} (h : stepWord words word c = some t)
    (hs : s.weight = weight words.flatten + weight (word.getD []))
    (hu : s.Unquoted → '"' ∉ words.flatten ∧ '"' ∉ word.getD []) : Keeps s t c := by
  simp only [stepWord] at h
  split at h
  · cases h
  split at h
  · rename_i hc
    obtain rfl := Option.some.inj h
    refine ⟨?_, fun _ h => hu h⟩
    simp [weight_mk, Mode.weight, hs]
  split at h
  · rename_i hc
    obtain rfl := Option.some.inj h
    subst hc
    refine ⟨?_, fun heq _ => ?_⟩
    · simp [weight_mk, Mode.weight, hs]
    · simp [weight_mk, Mode.weight, hs, weight_cons, isLost] at heq
  split at h
  · rename_i hc
    obtain rfl := Option.some.inj h
    subst hc
    refine ⟨?_, fun heq _ => ?_⟩
    · simp [weight_mk, Mode.weight, hs]
    · simp [weight_mk, Mode.weight, hs, weight_cons, isLost] at heq
  · rename_i hq _ _
    obtain rfl := Option.some.inj h
    refine ⟨?_, fun _ h => ⟨(hu h).1, ?_⟩⟩
    · simp [weight_mk, Mode.weight, hs, Nat.add_assoc]
    · simpa [Mode.Unquoted, eq_comm, hq] using (hu h).2

theorem keeps_blank {words : List (List Char)} {t : State} {c : Char}
    (h : step ⟨words, .blank⟩ c = some t) : Keeps ⟨words, .blank⟩ t c := by
  simp only [step] at h
  split at h
  · obtain rfl := Option.some.inj h
    exact ⟨Nat.le_add_right _ _, fun _ hu => hu⟩
  split at h
  · rename_i hc
    obtain rfl := Option.some.inj h
    subst hc
    refine ⟨Nat.le_add_right _ _, fun heq _ => ?_⟩
    simp [weight_mk, Mode.weight, weight_cons, isLost] at heq
  split at h
  · cases h
  · exact keeps_stepWord h rfl fun hu => ⟨hu.1, List.not_mem_nil⟩

theorem keeps_plain {words : List (List Char)} {word : List Char} {t : State} {c : Char}
    (h : step ⟨words, .plain word⟩ c = some t) : Keeps ⟨words, .plain word⟩ t c := by
  simp only [step] at h
  split at h
  · obtain rfl := Option.some.inj h
    refine ⟨?_, fun _ hu => ⟨?_, trivial⟩⟩
    · simp [weight_mk, Mode.weight]
    · simpa [State.Unquoted, Mode.Unquoted] using hu
  · exact keeps_stepWord h rfl fun hu => hu

theorem keeps_backslash {words : List (List Char)} {word : Option (List Char)} {t : State}
    {c : Char} (h : step ⟨words, .backslash word⟩ c = some t) :
    Keeps ⟨words, .backslash word⟩ t c := by
  simp only [step] at h
  split at h
  · obtain rfl := Option.some.inj h
    refine ⟨?_, fun _ hu => hu.2.elim⟩
    cases word <;> simp [weight_mk, Mode.weight]
  · obtain rfl := Option.some.inj h
    refine ⟨?_, fun _ hu => hu.2.elim⟩
    simp [weight_mk, Mode.weight, Nat.add_assoc]

theorem keeps_single {words : List (List Char)} {word : List Char} {t : State} {c : Char}
    (h : step ⟨words, .single word⟩ c = some t) : Keeps ⟨words, .single word⟩ t c := by
  simp only [step] at h
  obtain rfl := Option.some.inj h
  refine ⟨?_, fun _ hu => hu.2.elim⟩
  split <;> simp [weight_mk, Mode.weight, Nat.add_assoc]

theorem keeps_double {words : List (List Char)} {word : List Char} {t : State} {c : Char}
    (h : step ⟨words, .double word⟩ c = some t) : Keeps ⟨words, .double word⟩ t c := by
  simp only [step] at h
  split at h
  · cases h
  split at h
  · obtain rfl := Option.some.inj h
    exact ⟨Nat.le_add_right _ _, fun _ hu => hu⟩
  split at h
  · rename_i hc
    obtain rfl := Option.some.inj h
    subst hc
    refine ⟨?_, fun _ hu => hu⟩
    simp [weight_mk, Mode.weight, weight_cons, isLost, Nat.add_assoc]
  · rename_i hq _
    obtain rfl := Option.some.inj h
    refine ⟨?_, fun _ hu => ⟨hu.1, ?_⟩⟩
    · simp [weight_mk, Mode.weight, Nat.add_assoc]
    · simpa [Mode.Unquoted, eq_comm, hq] using hu.2

theorem keeps_doubleBackslash {words : List (List Char)} {word : List Char} {t : State} {c : Char}
    (h : step ⟨words, .doubleBackslash word⟩ c = some t) :
    Keeps ⟨words, .doubleBackslash word⟩ t c := by
  simp only [step] at h
  split at h
  · obtain rfl := Option.some.inj h
    refine ⟨?_, fun heq _ => ?_⟩
    · simp [weight_mk, Mode.weight]
      omega
    · simp [weight_mk, Mode.weight] at heq
      omega
  split at h
  · obtain rfl := Option.some.inj h
    refine ⟨?_, fun heq _ => ?_⟩
    · simp [weight_mk, Mode.weight]
      omega
    · simp [weight_mk, Mode.weight] at heq
      omega
  · rename_i hs
    obtain rfl := Option.some.inj h
    refine ⟨?_, fun _ hu => ⟨hu.1, ?_⟩⟩
    · simp [weight_mk, Mode.weight, weight_cons, isLost]
      omega
    · have hq : c ≠ '"' := by
        rintro rfl
        exact hs rfl
      simpa [Mode.Unquoted, eq_comm, hq] using hu.2

theorem keeps_comment {words : List (List Char)} {t : State} {c : Char}
    (h : step ⟨words, .comment⟩ c = some t) : Keeps ⟨words, .comment⟩ t c := by
  simp only [step] at h
  split at h
  · cases h
  · obtain rfl := Option.some.inj h
    exact ⟨Nat.le_add_right _ _, fun _ hu => hu⟩

theorem keeps_step {s t : State} {c : Char} (h : step s c = some t) : Keeps s t c := by
  obtain ⟨words, mode⟩ := s
  cases mode with
  | blank => exact keeps_blank h
  | plain word => exact keeps_plain h
  | backslash word => exact keeps_backslash h
  | single word => exact keeps_single h
  | double word => exact keeps_double h
  | doubleBackslash word => exact keeps_doubleBackslash h
  | comment => exact keeps_comment h

/-- **Reading a text adds nothing** to what can be lost, and if nothing is lost then no quote is
passed. -/
theorem keeps_run {s t : State} {cs : List Char} (h : run s cs = some t) :
    t.weight ≤ s.weight + weight cs ∧
      (t.weight = s.weight + weight cs → s.Unquoted → t.Unquoted) := by
  induction cs generalizing s with
  | nil =>
    obtain rfl := Option.some.inj h
    exact ⟨Nat.le_refl _, fun _ hu => hu⟩
  | cons c cs ih =>
    obtain ⟨s', hs', hrun⟩ := Option.bind_eq_some_iff.mp h
    obtain ⟨hle, hkeep⟩ := keeps_step hs'
    obtain ⟨hle', hkeep'⟩ := ih hrun
    have hsplit : weight (c :: cs) = weight [c] + weight cs := weight_append [c] cs
    refine ⟨by omega, fun heq hu => ?_⟩
    exact hkeep' (by omega) (hkeep (by omega) hu)

theorem keeps_finish {s : State} {words : List (List Char)} (h : finish s = some words) :
    weight words.flatten ≤ s.weight ∧
      (weight words.flatten = s.weight → s.Unquoted → '"' ∉ words.flatten) := by
  obtain ⟨done, mode⟩ := s
  cases mode with
  | blank | comment =>
    obtain rfl := Option.some.inj h
    exact ⟨Nat.le_refl _, fun _ hu => hu.1⟩
  | plain word =>
    obtain rfl := Option.some.inj h
    refine ⟨by simp [weight_mk, Mode.weight], fun _ hu => ?_⟩
    simpa [State.Unquoted, Mode.Unquoted] using hu
  | backslash | single | double | doubleBackslash => cases h

/-! ### Words in double quotes -/

/-- A word written in double quotes, with nothing escaped. -/
def doubleQuoted (word : List Char) : List Char := '"' :: (word ++ ['"'])

/-- Words written in double quotes, each with a blank before it. -/
def spaced (words : List (List Char)) : List Char :=
  words.flatMap fun word => ' ' :: doubleQuoted word

/-- Whether what is left of a word means itself inside double quotes, where `escaped` tells whether
a backslash comes before it. No backslash may come last, since the closing quote would follow. -/
def IsLiteralFrom : Bool → List Char → Prop
  | escaped, [] => escaped = false
  | escaped, c :: cs =>
    c ≠ '"' ∧ c ≠ '$' ∧ c ≠ '`' ∧ (escaped = true → c ≠ '\\' ∧ c ≠ '\n') ∧
      IsLiteralFrom (c = '\\') cs

/-- Whether a word means itself in double quotes: it has no `"`, no `$` and no backquote, and no
backslash that is followed by a backslash or a newline or by nothing. -/
def IsLiteral (word : List Char) : Prop := IsLiteralFrom false word

instance decidableIsLiteralFrom : (escaped : Bool) → (word : List Char) →
    Decidable (IsLiteralFrom escaped word)
  | escaped, [] => inferInstanceAs (Decidable (escaped = false))
  | escaped, c :: cs =>
    have := decidableIsLiteralFrom (c = '\\') cs
    inferInstanceAs (Decidable (c ≠ '"' ∧ c ≠ '$' ∧ c ≠ '`' ∧
      (escaped = true → c ≠ '\\' ∧ c ≠ '\n') ∧ IsLiteralFrom (c = '\\') cs))

instance (word : List Char) : Decidable (IsLiteral word) := decidableIsLiteralFrom false word

/-- Inside double quotes, after a backslash or not. -/
def inside (escaped : Bool) (word : List Char) : Mode :=
  if escaped then .doubleBackslash word else .double word

section Literal

variable {escaped : Bool} {words : List (List Char)} {word read : List Char} {c : Char}
  {s t : State}

/-- What is inside double quotes, with a backslash that has turned out to be literal. -/
def unescaped (escaped : Bool) (read : List Char) : List Char :=
  read ++ if escaped then ['\\'] else []

theorem weight_inside :
    State.weight ⟨words, inside escaped read⟩ =
      weight words.flatten + weight (unescaped escaped read) := by
  cases escaped <;> simp [weight_mk, inside, Mode.weight, unescaped, weight_cons, isLost]

/-- Whether a character means itself inside double quotes, after a backslash or not. -/
def IsPlainInside (escaped : Bool) (c : Char) : Prop :=
  c ≠ '$' ∧ c ≠ '`' ∧ (escaped = true → c ≠ '\\' ∧ c ≠ '\n')

theorem isLiteralFrom_cons {cs : List Char} :
    IsLiteralFrom escaped (c :: cs) ↔
      c ≠ '"' ∧ IsPlainInside escaped c ∧ IsLiteralFrom (c = '\\') cs := by
  simp only [IsLiteralFrom, IsPlainInside, and_assoc]

/-- A character that means itself is read as it is; a backslash waits for the next one. -/
theorem step_of_isPlainInside (hquote : c ≠ '"') (h : IsPlainInside escaped c) :
    step ⟨words, inside escaped read⟩ c =
      some ⟨words, inside (c = '\\')
        (unescaped escaped read ++ if c = '\\' then [] else [c])⟩ := by
  obtain ⟨hdollar, hback, hescaped⟩ := h
  cases escaped with
  | false =>
    by_cases hc : c = '\\' <;> simp [step, inside, unescaped, hquote, hdollar, hback, hc]
  | true =>
    obtain ⟨hslash, hnewline⟩ := hescaped rfl
    simp [step, inside, unescaped, isDoubleSpecial, hquote, hdollar, hback, hslash, hnewline]

/-- Any other character is refused or has a backslash lost. -/
theorem weight_lt_of_not_isPlainInside (h : step ⟨words, inside escaped read⟩ c = some s)
    (hnot : ¬ IsPlainInside escaped c) :
    s.weight < State.weight ⟨words, inside escaped read⟩ + weight [c] := by
  cases escaped with
  | false =>
    have hrefused : c = '$' ∨ c = '`' := by
      simpa [IsPlainInside, ← not_and_or, not_and, or_iff_not_imp_left] using hnot
    simp [step, inside, hrefused] at h
  | true =>
    have hspecial : c = '\n' ∨ isDoubleSpecial c = true := by
      simp only [IsPlainInside, isDoubleSpecial, Bool.or_eq_true, decide_eq_true_eq] at hnot ⊢
      tauto
    rw [weight_inside]
    by_cases hnewline : c = '\n'
    · simp only [step, inside, if_true, hnewline] at h
      obtain rfl := Option.some.inj h
      simp [weight_mk, Mode.weight, unescaped, weight_cons, isLost]
      omega
    · simp only [step, inside, if_true, hnewline, if_false,
        hspecial.resolve_left hnewline] at h
      obtain rfl := Option.some.inj h
      simp [weight_mk, Mode.weight, unescaped, weight_cons, isLost]
      omega

/-- A literal word is read as it is, up to the closing quote. -/
theorem run_of_isLiteralFrom (h : IsLiteralFrom escaped word) :
    run ⟨words, inside escaped read⟩ (word ++ ['"']) =
      some ⟨words, .plain (unescaped escaped read ++ word)⟩ := by
  induction word generalizing escaped read with
  | nil =>
    obtain rfl : escaped = false := h
    simp [run, step, inside, unescaped]
  | cons c cs ih =>
    obtain ⟨hquote, hplain, hrest⟩ := isLiteralFrom_cons.mp h
    simp only [List.cons_append, run, step_of_isPlainInside hquote hplain, Option.bind_some,
      ih hrest]
    by_cases hc : c = '\\' <;> simp [unescaped, hc]

/-- A word that is read without a loss, and has no quote, is literal. -/
theorem isLiteralFrom_of_run (h : run ⟨words, inside escaped read⟩ (word ++ ['"']) = some t)
    (heq : t.weight = State.weight ⟨words, inside escaped read⟩ + weight word)
    (hquote : '"' ∉ word) : IsLiteralFrom escaped word := by
  induction word generalizing escaped read with
  | nil =>
    -- After a backslash, the closing quote would be taken for a character of the word.
    cases escaped with
    | false => rfl
    | true =>
      simp only [List.nil_append, run, step, inside, if_true] at h
      obtain rfl := Option.some.inj h
      rw [weight_inside, weight_mk] at heq
      simp [Mode.weight, unescaped, weight_cons, isLost] at heq
  | cons c cs ih =>
    obtain ⟨hc, hcs⟩ : '"' ≠ c ∧ '"' ∉ cs := by simpa using hquote
    rw [List.cons_append] at h
    obtain ⟨s, hs, hrun⟩ := Option.bind_eq_some_iff.mp h
    have hle := (keeps_run hrun).1
    have hsplit : weight (c :: cs) = weight [c] + weight cs := weight_append [c] cs
    rw [weight_append, show weight ['"'] = 0 from rfl] at hle
    by_cases hplain : IsPlainInside escaped c
    · rw [step_of_isPlainInside (Ne.symm hc) hplain] at hs
      obtain rfl := Option.some.inj hs
      refine isLiteralFrom_cons.mpr ⟨Ne.symm hc, hplain, ih hrun ?_ hcs⟩
      have hplainStep : step ⟨words, inside escaped read⟩ c = _ :=
        step_of_isPlainInside (Ne.symm hc) hplain
      have hstep := (keeps_step hplainStep).1
      omega
    · have hlt := weight_lt_of_not_isPlainInside hs hplain
      omega

end Literal

/-! ### Lists of words -/

section Words

variable {words rest out : List (List Char)} {word tail : List Char}

theorem weight_spaced : weight (spaced rest) = weight rest.flatten := by
  induction rest with
  | nil => rfl
  | cons w rest ih =>
    have hcons : spaced (w :: rest) = ' ' :: doubleQuoted w ++ spaced rest := rfl
    simp [hcons, doubleQuoted, weight_cons, isLost, ih]

/-- After a word, the next one begins with a blank and a quote. -/
theorem run_blank_quote (cs : List Char) :
    run ⟨words, .plain word⟩ (' ' :: '"' :: cs) = run ⟨words ++ [word], inside false []⟩ cs := by
  rfl

theorem run_quote (cs : List Char) :
    run ⟨words, .blank⟩ ('"' :: cs) = run ⟨words, inside false []⟩ cs := by
  rfl

theorem spaced_cons_append (w : List Char) :
    spaced (w :: rest) ++ tail = ' ' :: '"' :: ((w ++ ['"']) ++ (spaced rest ++ tail)) := by
  simp [spaced, doubleQuoted]

/-- Literal words are read one after another. A blank at the end makes no difference. -/
theorem finish_of_isLiteral (htail : tail = [] ∨ tail = [' '])
    (h : ∀ w ∈ word :: rest, IsLiteral w) :
    (run ⟨words, inside false []⟩ ((word ++ ['"']) ++ (spaced rest ++ tail))).bind finish =
      some (words ++ word :: rest) := by
  induction rest generalizing words word with
  | nil =>
    rw [run_append, run_of_isLiteralFrom (List.forall_mem_cons.mp h).1]
    rcases htail with rfl | rfl <;> simp [spaced, run, step, isBlank, finish, unescaped]
  | cons w rest ih =>
    obtain ⟨hword, hrest⟩ := List.forall_mem_cons.mp h
    rw [run_append, run_of_isLiteralFrom hword, Option.bind_some, spaced_cons_append,
      run_blank_quote, ih hrest]
    simp [unescaped]

/-- If nothing is lost of the words that are read, then nothing is lost of the first. -/
theorem isLiteral_head
    (h : (run ⟨words, inside false []⟩ ((word ++ ['"']) ++ (spaced rest ++ tail))).bind finish =
      some out)
    (heq : weight out.flatten = weight words.flatten + weight word + weight (spaced rest ++ tail))
    (hquote : '"' ∉ word) :
    IsLiteral word ∧
      (run ⟨words, .plain word⟩ (spaced rest ++ tail)).bind finish = some out := by
  rw [run_append] at h
  obtain ⟨u, hu, hout⟩ := Option.bind_eq_some_iff.mp h
  obtain ⟨s, hs, hrun⟩ := Option.bind_eq_some_iff.mp hu
  have hstart : State.weight ⟨words, inside false []⟩ = weight words.flatten := rfl
  have hword := (keeps_run hs).1
  have hafter := (keeps_run hrun).1
  have hend := (keeps_finish hout).1
  rw [weight_append word, show weight ['"'] = 0 from rfl, hstart] at hword
  have hliteral : IsLiteral word := isLiteralFrom_of_run hs (by omega) hquote
  rw [run_of_isLiteralFrom hliteral] at hs
  obtain rfl := Option.some.inj hs
  exact ⟨hliteral, Option.bind_eq_some_iff.mpr ⟨u, hrun, hout⟩⟩

/-- Words that are read without a loss, and have no quote, are literal. -/
theorem isLiteral_of_finish
    (h : (run ⟨words, inside false []⟩ ((word ++ ['"']) ++ (spaced rest ++ tail))).bind finish =
      some out)
    (heq : weight out.flatten = weight words.flatten + weight word + weight (spaced rest ++ tail))
    (hquote : ∀ w ∈ word :: rest, '"' ∉ w) : ∀ w ∈ word :: rest, IsLiteral w := by
  induction rest generalizing words word with
  | nil =>
    obtain ⟨hliteral, -⟩ := isLiteral_head h heq (hquote word (List.mem_cons_self ..))
    simpa using hliteral
  | cons w rest ih =>
    obtain ⟨hw, hrest⟩ := List.forall_mem_cons.mp hquote
    obtain ⟨hliteral, hnext⟩ := isLiteral_head h heq hw
    rw [spaced_cons_append, run_blank_quote] at hnext
    refine List.forall_mem_cons.mpr ⟨hliteral, ih hnext ?_ hrest⟩
    have hsplit : weight (spaced (w :: rest) ++ tail) =
        weight w + weight (spaced rest ++ tail) := by
      simp [spaced_cons_append, weight_cons, isLost]
    have hdone : weight (words ++ [word]).flatten = weight words.flatten + weight word := by
      simp
    omega

/-- **Which words survive double quotes.** Written in double quotes with blanks between them, after
words that have been read already, words are read back exactly if each of them is literal. -/
theorem finish_doubleQuoted_iff (htail : tail = [] ∨ tail = [' ']) (hwords : '"' ∉ words.flatten) :
    (run ⟨words, .blank⟩ (doubleQuoted word ++ (spaced rest ++ tail))).bind finish =
        some (words ++ word :: rest) ↔
      ∀ w ∈ word :: rest, IsLiteral w := by
  have htext : doubleQuoted word ++ (spaced rest ++ tail) =
      '"' :: ((word ++ ['"']) ++ (spaced rest ++ tail)) := rfl
  constructor
  · intro h
    have hweight : weight (words ++ word :: rest).flatten =
        weight words.flatten + weight word + weight (spaced rest ++ tail) := by
      have hblank : weight tail = 0 := by rcases htail with rfl | rfl <;> rfl
      simp [weight_spaced, hblank, Nat.add_assoc]
    have hquote : '"' ∉ (words ++ word :: rest).flatten := by
      obtain ⟨u, hu, hout⟩ := Option.bind_eq_some_iff.mp h
      obtain ⟨hle, hkeep⟩ := keeps_run hu
      obtain ⟨hend, hfinal⟩ := keeps_finish hout
      have htotal : weight (doubleQuoted word ++ (spaced rest ++ tail)) =
          weight word + weight (spaced rest ++ tail) := by
        simp [doubleQuoted, weight_cons, isLost]
      have hstart : State.weight ⟨words, .blank⟩ = weight words.flatten := rfl
      rw [hstart] at hle hkeep
      exact hfinal (by omega) (hkeep (by omega) ⟨hwords, trivial⟩)
    rw [htext, run_quote] at h
    refine isLiteral_of_finish h hweight fun w hw hmem => hquote ?_
    exact List.mem_flatten.mpr ⟨w, List.mem_append_right _ hw, hmem⟩
  · intro h
    rw [htext, run_quote]
    exact finish_of_isLiteral htail h

end Words

end Shell

end Shabdiz
