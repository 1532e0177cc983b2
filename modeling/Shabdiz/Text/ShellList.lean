import Shabdiz.Text.Shell

/-!
# Lists of shell commands

`Shell.tokenise` reads one simple command. A program that hands over its commands to a shell writes
several of them in one text, with semicolons between, and may ask for the process id of the shell
itself with `$$`. `readList` is the reading of such a text: the words of each command, in the order
in which the shell runs them. Everything else that `tokenise` refuses is refused here as well.

Both readers go through a text from left to right, so a text can be put together from parts. A part
`Passes` words if the reader is between two words again at its end, and has read these. Parts that
pass words can be written one after another, and a part of a single command that passes words does
so in a list of commands.

## Main definitions

* `Shell.IsBare` — a word that means itself without any quotes
* `Shell.Passes` — a part of a command that is read as whole words
* `Shell.ListState`, `Shell.stepList`, `Shell.readList` — the reader of a list of commands

## Main results

* `Shell.passes_append` — parts can be written one after another
* `Shell.passes_prefixed` — a bare beginning and the rest in double quotes make one word
* `Shell.runList_of_run` — within one command, the reader of lists is the reader of commands
* `Shell.readList_semicolon` — what is before a semicolon is a command of its own
-/

namespace Shabdiz

namespace Shell

/-! ### Parts of a command -/

/-- A part of a command that is read as whole words, with the next one to begin after it. -/
def Passes (text : List Char) (words : List (List Char)) : Prop :=
  run ⟨[], .blank⟩ text = some ⟨words, .blank⟩

instance (text : List Char) (words : List (List Char)) : Decidable (Passes text words) :=
  inferInstanceAs (Decidable (run ⟨[], .blank⟩ text = some ⟨words, .blank⟩))

/-- A state of the reader with words that were read before. -/
def State.after (before : List (List Char)) (s : State) : State := ⟨before ++ s.words, s.mode⟩

section Frame

variable {before words : List (List Char)} {text rest : List Char} {s : State} {c : Char}

theorem stepWord_append (word : Option (List Char)) :
    stepWord (before ++ words) word c = (stepWord words word c).map (State.after before) := by
  simp only [stepWord, State.after, apply_ite (Option.map _), Option.map_some, Option.map_none]

theorem step_after : step (s.after before) c = (step s c).map (State.after before) := by
  obtain ⟨words, mode⟩ := s
  cases mode <;>
    simp only [step, State.after, stepWord_append, apply_ite (Option.map _), Option.map_some,
      Option.map_none, List.append_assoc]

/-- Words that were read before are left alone. -/
theorem run_after : run (s.after before) text = (run s text).map (State.after before) := by
  induction text generalizing s with
  | nil => rfl
  | cons c cs ih =>
    rw [run, run, step_after, Option.map_bind, Option.bind_map]
    congr 1
    funext t
    exact ih

theorem run_of_passes (h : Passes text words) :
    run ⟨before, .blank⟩ text = some ⟨before ++ words, .blank⟩ := by
  have hafter : (⟨before, .blank⟩ : State) = State.after before ⟨[], .blank⟩ := by
    simp [State.after]
  rw [hafter, run_after, h]
  rfl

theorem passes_nil : Passes [] [] := rfl

theorem passes_append {words' : List (List Char)} (h : Passes text words)
    (hrest : Passes rest words') : Passes (text ++ rest) (words ++ words') := by
  rw [Passes, run_append, h, Option.bind_some, run_of_passes hrest]

theorem tokenise_of_passes (h : Passes text words) : tokenise text = some words := by
  rw [tokenise, h]
  rfl

theorem finish_after : finish (s.after before) = (finish s).map (before ++ ·) := by
  obtain ⟨words, mode⟩ := s
  cases mode <;> simp [finish, State.after]

/-- What is read after a part that passes words does not depend on it. -/
theorem tokenise_passes_append (h : Passes text words) :
    tokenise (text ++ rest) = (tokenise rest).map (words ++ ·) := by
  have hafter : (⟨words, .blank⟩ : State) = State.after words ⟨[], .blank⟩ := by
    simp [State.after]
  rw [tokenise_append h, hafter, run_after, tokenise, Option.map_bind, Option.bind_map]
  congr 1
  funext t
  exact finish_after

end Frame

/-! ### Words with no quotes -/

/-- Whether a character means itself inside a word without quotes. The control characters and the
braces, which some shells expand, are left out. -/
def isBareChar (c : Char) : Bool :=
  ' ' < c && !isOperator c && !isExpansion c && c != '"' && c != '\'' && c != '\\' &&
    c != '{' && c != '}'

/-- Whether a character may begin a word without quotes. -/
def isBareHead (c : Char) : Bool := c != '#' && c != '~'

/-- A word that means itself without quotes. -/
def IsBare (word : List Char) : Prop :=
  word ≠ [] ∧ (∀ c ∈ word.head?, isBareHead c = true) ∧ ∀ c ∈ word, isBareChar c = true

instance (word : List Char) : Decidable (IsBare word) :=
  decidable_of_iff (word ≠ [] ∧ word.head?.all isBareHead = true ∧ word.all isBareChar = true)
    (by simp [IsBare, Option.all_eq_true])

section Bare

variable {words : List (List Char)} {word text read : List Char} {c : Char}

theorem isBare_append (h : IsBare word) (htext : ∀ c ∈ text, isBareChar c = true) :
    IsBare (word ++ text) := by
  refine ⟨List.append_ne_nil_of_left_ne_nil h.1 _, fun c hc => h.2.1 c ?_, fun c hc => ?_⟩
  · rwa [List.head?_append_of_ne_nil _ h.1] at hc
  · exact (List.mem_append.mp hc).elim (h.2.2 c) (htext c)

theorem stepWord_of_isBareChar (h : isBareChar c = true) (word : Option (List Char)) :
    stepWord words word c = some ⟨words, .plain (word.getD [] ++ [c])⟩ := by
  simp only [isBareChar, Bool.and_eq_true, Bool.not_eq_true', bne_iff_ne] at h
  obtain ⟨⟨⟨⟨⟨⟨⟨-, hoperator⟩, hexpansion⟩, hdouble⟩, hsingle⟩, hslash⟩, -⟩, -⟩ := h
  simp [stepWord, hoperator, hexpansion, hdouble, hsingle, hslash]

theorem isBlank_of_isBareChar (h : isBareChar c = true) : isBlank c = false := by
  simp only [isBareChar, Bool.and_eq_true, decide_eq_true_eq] at h
  have hlt : ' ' < c := h.1.1.1.1.1.1.1
  have hspace : c ≠ ' ' := by
    rintro rfl
    exact absurd hlt (by decide)
  have htab : c ≠ '\t' := by
    rintro rfl
    exact absurd hlt (by decide)
  simp [isBlank, hspace, htab]

theorem step_plain_of_isBareChar (h : isBareChar c = true) :
    step ⟨words, .plain read⟩ c = some ⟨words, .plain (read ++ [c])⟩ := by
  simp [step, isBlank_of_isBareChar h, stepWord_of_isBareChar h]

theorem run_plain_of_isBareChar (h : ∀ c ∈ text, isBareChar c = true) :
    run ⟨words, .plain read⟩ text = some ⟨words, .plain (read ++ text)⟩ := by
  induction text generalizing read with
  | nil => simp [run]
  | cons c cs ih =>
    obtain ⟨hc, hcs⟩ := List.forall_mem_cons.mp h
    rw [run, step_plain_of_isBareChar hc, Option.bind_some, ih hcs]
    simp

/-- A bare word is read up to its last character. -/
theorem run_of_isBare (h : IsBare word) :
    run ⟨words, .blank⟩ word = some ⟨words, .plain word⟩ := by
  obtain ⟨hne, hhead, hall⟩ := h
  cases word with
  | nil => exact absurd rfl hne
  | cons c cs =>
    obtain ⟨hc, hcs⟩ := List.forall_mem_cons.mp hall
    have hbegin := hhead c rfl
    simp only [isBareHead, Bool.and_eq_true, bne_iff_ne] at hbegin
    have hstep : step ⟨words, .blank⟩ c = some ⟨words, .plain [c]⟩ := by
      simp [step, isBlank_of_isBareChar hc, hbegin.1, hbegin.2, stepWord_of_isBareChar hc]
    rw [run, hstep, Option.bind_some, run_plain_of_isBareChar hcs]
    rfl

theorem passes_bare (h : IsBare word) : Passes (word ++ [' ']) [word] := by
  rw [Passes, run_append, run_of_isBare h]
  rfl

/-- A literal word in double quotes, after the beginning of the same word. -/
theorem run_plain_doubleQuoted (h : IsLiteral word) :
    run ⟨words, .plain read⟩ (doubleQuoted word) = some ⟨words, .plain (read ++ word)⟩ := by
  have hquote : run ⟨words, .plain read⟩ (doubleQuoted word) =
      run ⟨words, inside false read⟩ (word ++ ['"']) := rfl
  rw [hquote, run_of_isLiteralFrom h]
  simp [unescaped]

/-- **A bare beginning and a literal rest** in double quotes make one word. -/
theorem passes_prefixed (h : IsBare read) (hword : IsLiteral word) :
    Passes (read ++ doubleQuoted word ++ [' ']) [read ++ word] := by
  rw [Passes, run_append, run_append, run_of_isBare h, Option.bind_some,
    run_plain_doubleQuoted hword]
  rfl

theorem passes_doubleQuoted (h : IsLiteral word) : Passes (doubleQuoted word ++ [' ']) [word] := by
  rw [Passes, doubleQuoted, List.cons_append, run_quote, run_append, run_of_isLiteralFrom h]
  rfl

end Bare

/-! ### Literal words -/

section Literal

variable {escaped : Bool} {word rest : List Char}

theorem isLiteral_append (h : IsLiteralFrom escaped word) (hrest : IsLiteral rest) :
    IsLiteralFrom escaped (word ++ rest) := by
  induction word generalizing escaped with
  | nil =>
    obtain rfl : escaped = false := h
    exact hrest
  | cons c cs ih =>
    obtain ⟨hquote, hplain, hcs⟩ := isLiteralFrom_cons.mp h
    exact isLiteralFrom_cons.mpr ⟨hquote, hplain, ih hcs⟩

/-- A word with none of the characters that mean something in double quotes. -/
theorem isLiteral_of_forall (h : ∀ c ∈ word, isDoubleSpecial c = false) : IsLiteral word := by
  induction word with
  | nil => rfl
  | cons c cs ih =>
    obtain ⟨hc, hcs⟩ := List.forall_mem_cons.mp h
    simp only [isDoubleSpecial, Bool.or_eq_false_iff, decide_eq_false_iff_not] at hc
    obtain ⟨⟨⟨hdollar, hback⟩, hquote⟩, hslash⟩ := hc
    refine ⟨hquote, hdollar, hback, by simp, ?_⟩
    rw [decide_eq_false hslash]
    exact ih hcs

theorem notMem_of_isBare (h : IsBare word) : '"' ∉ word := fun hquote => by
  have := h.2.2 _ hquote
  revert this
  decide

theorem notMem_of_isLiteralFrom (h : IsLiteralFrom escaped word) :
    '"' ∉ word := by
  induction word generalizing escaped with
  | nil => exact List.not_mem_nil
  | cons c cs ih =>
    rw [List.mem_cons, not_or]
    exact ⟨fun heq => h.1 heq.symm, ih h.2.2.2.2⟩

end Literal

/-! ### Lists of commands -/

/-- The commands whose end has been read, the reader of the current one, and whether a `$` waits
for the character after it. -/
structure ListState where
  commands : List (List (List Char))
  current : State
  dollar : Bool
deriving DecidableEq

/-- Whether a semicolon ends the command. -/
def Mode.separates : Mode → Bool
  | .blank | .plain _ => true
  | _ => false

/-- Whether a `$` introduces an expansion. -/
def Mode.expands : Mode → Bool
  | .blank | .plain _ | .double _ => true
  | _ => false

/-- Take the value of an expansion for a part of the word. -/
def Mode.expand (value : List Char) : Mode → Mode
  | .blank => .plain value
  | .plain word => .plain (word ++ value)
  | .double word => .double (word ++ value)
  | mode => mode

/-- Read one character of a list of commands, in a shell whose process id is `pid`. There must be
a command before each semicolon. -/
def stepList (pid : List Char) (s : ListState) (c : Char) : Option ListState :=
  if s.dollar then
    if c = '$' then
      some { s with
        current := { s.current with mode := s.current.mode.expand pid }, dollar := false }
    else none
  else if c = '$' && s.current.mode.expands then some { s with dollar := true }
  else if c = ';' && s.current.mode.separates then
    (finish s.current).bind fun words =>
      if words = [] then none else some ⟨s.commands ++ [words], ⟨[], .blank⟩, false⟩
  else (step s.current c).map fun current => { s with current }

/-- Read a text. -/
def runList (pid : List Char) : ListState → List Char → Option ListState
  | s, [] => some s
  | s, c :: cs => (stepList pid s c).bind fun s' => runList pid s' cs

/-- The commands of a text that has been read to its end. The last one may be missing. -/
def finishList (s : ListState) : Option (List (List (List Char))) :=
  if s.dollar then none
  else (finish s.current).map fun words =>
    if words = [] then s.commands else s.commands ++ [words]

/-- The commands that a shell runs, in order, with the words of each. -/
def readList (pid text : List Char) : Option (List (List (List Char))) :=
  (runList pid ⟨[], ⟨[], .blank⟩, false⟩ text).bind finishList

section Lists

variable {pid : List Char} {commands : List (List (List Char))} {s t : State} {c : Char}
  {text rest : List Char} {words : List (List Char)}

theorem runList_append (l : ListState) :
    runList pid l (text ++ rest) = (runList pid l text).bind fun l' => runList pid l' rest := by
  induction text generalizing l with
  | nil => rfl
  | cons c cs ih =>
    simp only [List.cons_append, runList, Option.bind_assoc]
    congr 1
    funext l'
    exact ih l'

/-- A `$` that introduces an expansion is not read as a part of a command. -/
theorem step_dollar (h : s.mode.expands = true) : step s '$' = none := by
  obtain ⟨words, mode⟩ := s
  cases mode <;> first | rfl | cases h

/-- A semicolon that ends a command is not read as a part of it. -/
theorem step_semicolon (h : s.mode.separates = true) : step s ';' = none := by
  obtain ⟨words, mode⟩ := s
  cases mode <;> first | rfl | cases h

theorem stepList_of_step (h : step s c = some t) :
    stepList pid ⟨commands, s, false⟩ c = some ⟨commands, t, false⟩ := by
  have hdollar : ¬ (c = '$' && s.mode.expands) = true := by
    intro hc
    rw [Bool.and_eq_true, decide_eq_true_eq] at hc
    obtain ⟨rfl, hexpands⟩ := hc
    rw [step_dollar hexpands] at h
    cases h
  have hsemicolon : ¬ (c = ';' && s.mode.separates) = true := by
    intro hc
    rw [Bool.and_eq_true, decide_eq_true_eq] at hc
    obtain ⟨rfl, hseparates⟩ := hc
    rw [step_semicolon hseparates] at h
    cases h
  rw [stepList, if_neg Bool.false_ne_true, if_neg hdollar, if_neg hsemicolon, h]
  rfl

/-- **Within one command**, the reader of lists is the reader of commands. -/
theorem runList_of_run (h : run s text = some t) :
    runList pid ⟨commands, s, false⟩ text = some ⟨commands, t, false⟩ := by
  induction text generalizing s with
  | nil =>
    obtain rfl := Option.some.inj h
    rfl
  | cons c cs ih =>
    obtain ⟨u, hstep, hrun⟩ := Option.bind_eq_some_iff.mp h
    rw [runList, stepList_of_step hstep, Option.bind_some, ih hrun]

/-- What is before a semicolon is a command of its own. -/
theorem runList_semicolon (h : run ⟨[], .blank⟩ text = some s) (hseparates : s.mode.separates)
    (hwords : finish s = some words) (hne : words ≠ []) :
    runList pid ⟨commands, ⟨[], .blank⟩, false⟩ (text ++ ";".toList) =
      some ⟨commands ++ [words], ⟨[], .blank⟩, false⟩ := by
  rw [runList_append, runList_of_run h, Option.bind_some]
  show (stepList pid ⟨commands, s, false⟩ ';').bind _ = _
  simp [stepList, hseparates, hwords, hne, runList]

/-- The last command of a list. -/
theorem finishList_of_tokenise (h : tokenise text = some words) (hne : words ≠ []) :
    (runList pid ⟨commands, ⟨[], .blank⟩, false⟩ text).bind finishList =
      some (commands ++ [words]) := by
  obtain ⟨s, hrun, hfinish⟩ := Option.bind_eq_some_iff.mp h
  rw [runList_of_run hrun, Option.bind_some]
  simp [finishList, hfinish, hne]

end Lists

end Shell

end Shabdiz
