import Shabdiz.Text.Shell

/-!
# Commands with quoted arguments

`SimplePlatform.quote` puts a text in double quotes. `JavaProcessBuilder` quotes the command-line
arguments of the program this way, and the command builders that take paths quote the paths. On a
Unix-based platform the result is read by a shell, to which four characters mean something inside
double quotes; `quote` escapes none of them.

A text is a list of characters and `none` is `null`.

## Main definitions

* `SimplePlatform`, `SimplePlatform.quote`, `Platforms.isUnixBased`
* `JavaProcessBuilder.appendCommandLineArguments`
* `Commands.makeDirectories`, `Commands.deleteRecursively`, `Commands.changeDirectory`
* `ArgumentsSurvive` — the shell reads the words that were to be passed

## Main results

* `argumentsSurvive_iff` — arguments survive exactly if each means itself in double quotes
-/

namespace Shabdiz

open Shell

/-- A platform, by what decides about its commands. -/
structure SimplePlatform where
  pathSeparator : Char
  separator : Char
  /-- Whether it is a `CygwinPlatform`. -/
  isCygwinPlatform : Bool
deriving DecidableEq

/-- Quotes a text, whatever characters it has. -/
def SimplePlatform.quote (_ : SimplePlatform) (value : Option (List Char)) : Option (List Char) :=
  value.map fun value => ['"'] ++ value ++ ['"']

/-- A platform is Unix-based if its separators are those of Unix. -/
def Platforms.isUnixBased (target : SimplePlatform) : Bool :=
  target.pathSeparator = ':' && target.separator = '/'

/-- `append` of a string that may be null. -/
def StringBuilder.append (builder : List Char) (value : Option (List Char)) : List Char :=
  builder ++ value.getD "null".toList

/-- The command with the arguments appended, each of them quoted and followed by a space. -/
def JavaProcessBuilder.appendCommandLineArguments (command : List Char) (platform : SimplePlatform)
    (parameters : Option (List (Option (List Char)))) : List Char :=
  match parameters with
  | none => command
  | some parameters =>
    parameters.foldl
      (fun command argument => StringBuilder.append command (platform.quote argument) ++ [' '])
      command

/-- What building a command throws. -/
inductive CommandException where
  | illegalArgument (message : String)
  | arrayIndexOutOfBounds
deriving DecidableEq

namespace Commands

/-- The parameters, each quoted and after a space. -/
def quoteAndConcatenateWithSpace (platform : SimplePlatform)
    (params : List (Option (List Char))) : List Char :=
  params.foldl
    (fun builder param => StringBuilder.append (builder ++ [' ']) (platform.quote param)) []

/-- Whether a command is built for a shell rather than for the Windows Command Prompt. -/
def usesShell (platform : SimplePlatform) : Bool :=
  Platforms.isUnixBased platform || platform.isCygwinPlatform

/-- `MAKE_DIRECTORIES`. -/
def makeDirectories (platform : SimplePlatform) (parameters : List (Option (List Char))) :
    Except CommandException (List Char) :=
  if parameters.length = 0 then
    .error (.illegalArgument "at least one directory must be specified")
  else
    let directories := quoteAndConcatenateWithSpace platform parameters
    .ok (if usesShell platform then "mkdir -p ".toList ++ directories
      else "mkdir ".toList ++ directories ++ " 2> nul".toList)

/-- `DELETE_RECURSIVELY`. -/
def deleteRecursively (platform : SimplePlatform) (parameters : List (Option (List Char))) :
    Except CommandException (List Char) :=
  if parameters.length < 1 then .error (.illegalArgument "at least one path must be specified")
  else
    let quotedParams := quoteAndConcatenateWithSpace platform parameters
    .ok (if usesShell platform then "rm -rf ".toList ++ quotedParams
      else "set del_path=".toList ++ quotedParams ++
        " && rd /s /q %del_path% 2> nul && del /f /q %del_path% 2> nul".toList)

/-- `CHANGE_DIRECTORY`, which reads its first parameter only. -/
def changeDirectory (platform : SimplePlatform) (params : List (Option (List Char))) :
    Except CommandException (List Char) :=
  match params with
  | [] => .error .arrayIndexOutOfBounds
  | param :: _ => .ok (StringBuilder.append "cd ".toList (platform.quote param))

end Commands

/-- The shell reads the arguments that were to be passed, and does nothing else. This is about the
text that is appended to a command, and about the three commands that take paths, when they are
built at all. -/
def ArgumentsSurvive (platform : SimplePlatform) (arguments : List (List Char)) : Prop :=
  (∀ command, ∃ text,
    JavaProcessBuilder.appendCommandLineArguments command platform (some (arguments.map some)) =
        command ++ text ∧
      tokenise text = some arguments) ∧
  (∀ text, Commands.makeDirectories platform (arguments.map some) = .ok text →
    tokenise text = some (["mkdir".toList, "-p".toList] ++ arguments)) ∧
  (∀ text, Commands.deleteRecursively platform (arguments.map some) = .ok text →
    tokenise text = some (["rm".toList, "-rf".toList] ++ arguments)) ∧
  (∀ text, Commands.changeDirectory platform (arguments.map some) = .ok text →
    tokenise text = some (["cd".toList] ++ arguments.take 1))

section Texts

variable {platform : SimplePlatform} {word : List Char} {arguments rest : List (List Char)}

theorem append_quote (builder : List Char) :
    StringBuilder.append builder (platform.quote (some word)) = builder ++ doubleQuoted word := by
  simp [StringBuilder.append, SimplePlatform.quote, doubleQuoted]

/-- The text that is appended to a command: quoted words with a space after each. -/
theorem appendCommandLineArguments_eq (command : List Char) :
    JavaProcessBuilder.appendCommandLineArguments command platform
        (some (arguments.map some)) =
      command ++ arguments.flatMap fun argument => doubleQuoted argument ++ [' '] := by
  show (arguments.map some).foldl _ command = _
  induction arguments generalizing command with
  | nil => simp
  | cons argument rest ih =>
    rw [List.map_cons, List.foldl_cons, ih, append_quote]
    simp

/-- That text, with the first word and the last space apart. -/
theorem flatMap_doubleQuoted_cons :
    ((word :: rest).flatMap fun argument => doubleQuoted argument ++ [' ']) =
      doubleQuoted word ++ (spaced rest ++ [' ']) := by
  induction rest generalizing word with
  | nil => simp [spaced]
  | cons argument rest ih =>
    rw [List.flatMap_cons, ih]
    simp [spaced]

theorem quoteAndConcatenateWithSpace_eq :
    Commands.quoteAndConcatenateWithSpace platform (arguments.map some) = spaced arguments := by
  have hfold (builder : List Char) :
      (arguments.map some).foldl
          (fun builder param => StringBuilder.append (builder ++ [' ']) (platform.quote param))
          builder =
        builder ++ spaced arguments := by
    induction arguments generalizing builder with
    | nil => simp [spaced]
    | cons argument rest ih =>
      rw [List.map_cons, List.foldl_cons, ih, append_quote]
      simp [spaced]
  exact hfold []

/-- Quoted words after the beginning of a command. -/
theorem tokenise_command_iff {command : List Char} {words : List (List Char)}
    (h : run ⟨[], .blank⟩ command = some ⟨words, .blank⟩) (hquote : '"' ∉ words.flatten) :
    tokenise (command ++ spaced (word :: rest)) = some (words ++ word :: rest) ↔
      ∀ w ∈ word :: rest, IsLiteral w := by
  have hspaced : spaced (word :: rest) = ' ' :: (doubleQuoted word ++ (spaced rest ++ [])) := by
    simp [spaced]
  rw [tokenise_append h, hspaced, ← finish_doubleQuoted_iff (.inl rfl) hquote]
  rfl

theorem makeDirectories_eq (h : Commands.usesShell platform = true) :
    Commands.makeDirectories platform ((word :: rest).map some) =
      .ok ("mkdir -p ".toList ++ spaced (word :: rest)) := by
  simp only [Commands.makeDirectories, List.length_map, List.length_cons, Nat.add_eq_zero_iff,
    Nat.one_ne_zero, and_false, if_false, h, if_true, quoteAndConcatenateWithSpace_eq]

theorem deleteRecursively_eq (h : Commands.usesShell platform = true) :
    Commands.deleteRecursively platform ((word :: rest).map some) =
      .ok ("rm -rf ".toList ++ spaced (word :: rest)) := by
  have hlength : ¬ ((word :: rest).map some).length < 1 := by simp
  simp only [Commands.deleteRecursively, hlength, if_false, h, if_true,
    quoteAndConcatenateWithSpace_eq]

theorem changeDirectory_eq :
    Commands.changeDirectory platform ((word :: rest).map some) =
      .ok ("cd ".toList ++ doubleQuoted word) :=
  congrArg Except.ok (append_quote _)

/-- A command with one quoted word. -/
theorem tokenise_changeDirectory_iff :
    tokenise ("cd ".toList ++ doubleQuoted word) = some ["cd".toList, word] ↔ IsLiteral word := by
  have hone : (run ⟨["cd".toList], .blank⟩ (doubleQuoted word ++ (spaced [] ++ []))).bind finish =
      some (["cd".toList] ++ [word]) ↔ ∀ w ∈ [word], IsLiteral w :=
    finish_doubleQuoted_iff (.inl rfl) (by decide)
  rw [List.forall_mem_singleton] at hone
  rw [tokenise_append (s := ⟨["cd".toList], .blank⟩) rfl, ← hone]
  simp [spaced]

end Texts

section Main

variable {platform : SimplePlatform}

/-- **Which arguments survive.** On a Unix-based platform, they survive exactly if each of them
means itself in double quotes: it has no `"`, no `$` and no backquote, and no backslash that comes
last or before a backslash or a newline. -/
theorem argumentsSurvive_iff (h : Platforms.isUnixBased platform = true)
    (arguments : List (List Char)) :
    ArgumentsSurvive platform arguments ↔ ∀ argument ∈ arguments, IsLiteral argument := by
  have hshell : Commands.usesShell platform = true := by simp [Commands.usesShell, h]
  cases arguments with
  | nil =>
    refine iff_of_true ⟨fun command => ⟨[], ?_, rfl⟩, ?_, ?_, ?_⟩ (by simp)
    · exact (List.append_nil command).symm
    · rintro text ⟨⟩
    · rintro text ⟨⟩
    · rintro text ⟨⟩
  | cons word rest =>
    have happended :
        tokenise ((word :: rest).flatMap fun argument => doubleQuoted argument ++ [' ']) =
          some (word :: rest) ↔ ∀ w ∈ word :: rest, IsLiteral w := by
      rw [flatMap_doubleQuoted_cons]
      exact @finish_doubleQuoted_iff [] _ _ _ (.inr rfl) (by simp)
    constructor
    · rintro ⟨hcommand, -⟩
      obtain ⟨text, htext, hwords⟩ := hcommand []
      rw [appendCommandLineArguments_eq] at htext
      rw [← List.append_cancel_left htext] at hwords
      exact happended.mp hwords
    · intro hliteral
      refine ⟨fun command => ⟨_, appendCommandLineArguments_eq command, happended.mpr hliteral⟩,
        fun text htext => ?_, fun text htext => ?_, fun text htext => ?_⟩
      · obtain rfl := Except.ok.inj ((makeDirectories_eq hshell).symm.trans htext)
        exact (tokenise_command_iff rfl (by simp)).mpr hliteral
      · obtain rfl := Except.ok.inj ((deleteRecursively_eq hshell).symm.trans htext)
        exact (tokenise_command_iff rfl (by simp)).mpr hliteral
      · obtain rfl := Except.ok.inj (changeDirectory_eq.symm.trans htext)
        exact tokenise_changeDirectory_iff.mpr (List.forall_mem_cons.mp hliteral).1

/-- A path with a blank and a backslash, and a path with characters that expand outside quotes. -/
theorem argumentsSurvive_unix :
    ArgumentsSurvive ⟨':', '/', false⟩ ["a b\\c".toList, "*;#~'".toList] ∧
      ∀ argument ∈ ["a b\\c".toList, "*;#~'".toList], IsLiteral argument :=
  ⟨(argumentsSurvive_iff rfl _).mpr (by decide), by decide⟩

/-- A directory whose name closes the quotes: the rest of the name is a command of its own. -/
theorem not_argumentsSurvive_unix :
    ¬ ∀ platform arguments, Platforms.isUnixBased platform = true →
      ArgumentsSurvive platform arguments := by
  intro hall
  obtain ⟨-, -, hdelete, -⟩ := hall ⟨':', '/', false⟩ ["tmp\"; reboot \"".toList] rfl
  have hread := hdelete _ rfl
  revert hread
  decide

end Main

end Shabdiz
