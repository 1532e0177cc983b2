import Mathlib.Logic.Function.Basic
import Shabdiz.Host.BootstrapConfiguration
import Shabdiz.Host.Commands
import Shabdiz.Text.ShellList

/-!
# Commands for `java`

A `JavaProcessBuilder` puts a command together from parts. The arguments of the program are quoted;
the arguments of the virtual machine and the name of the main class are not. So the shell takes the
former as they are if each means itself in double quotes. It takes the latter as they are if nothing
in them has a meaning to it at all, which the name of a nested class does not satisfy.

A `LocalHost` hands the command over to a shell. An `SSHHost` sends it in one text with two others:
one that tells the process id of the shell, and one that changes to the working directory.

Both put a file that is uploaded into the directory that the destination names, or else at the path
itself, and over a file that is there already. So of several files that come to one path the last
one stays. The files are regular ones.

## Main definitions

* `Platform` — platforms with a temporary directory, whose path ends with a separator
* `JavaProcessBuilder` — the arguments of the virtual machine, the main class and the directory
* `IsClassName` — names of classes, as far as the shell is concerned
* `HostCall`, `LocalHost.execute`, `SSHHost.execute` — what a host is asked, and gives the shell
* `HostFiles`, `HostFiles.after` — what is on a host, and what calls make of it
* `RunsProgram` — wherever the host is, the shell runs one program

## Main results

* `passes_appendJVMArguments` — bare arguments of the virtual machine become one word each
* `tokenise_appendCommandLineArguments_iff` — when a command for `java` is read as intended
* `runsProgram_iff` — the shell of any host runs the program if it reads the command as one
* `put_all_iff` — files that are put into one directory are all there if names tell them apart
-/

namespace Shabdiz

open Shell

/-! ### Platforms -/

/-- A path that ends with a separator. -/
def SimplePlatform.addTailingSeparator (separator : Char) (path : List Char) : List Char :=
  if path.getLast? = some separator then path else path ++ [separator]

theorem SimplePlatform.getLast?_addTailingSeparator (separator : Char) (path : List Char) :
    (addTailingSeparator separator path).getLast? = some separator := by
  rw [addTailingSeparator]
  split
  · assumption
  · exact List.getLast?_concat

/-- A platform with its temporary directory. -/
structure Platform extends SimplePlatform where
  tempDirectory : List Char
  endsWithSeparator : tempDirectory.getLast? = some separator

/-- The constructor of a platform, which adds the last separator if there is none. -/
def SimplePlatform.withTempDirectory (platform : SimplePlatform) (tempDir : List Char) : Platform :=
  { platform with
    tempDirectory := SimplePlatform.addTailingSeparator platform.separator tempDir
    endsWithSeparator := SimplePlatform.getLast?_addTailingSeparator _ _ }

/-- It is `null` on every platform. -/
def SimplePlatform.getJavaHomeDirectory (_ : SimplePlatform) : Option (List Char) := none

/-! ### Identifiers -/

/-- The characters of `UUID.randomUUID().toString()`, with which directories are named. -/
def isUuidChar (c : Char) : Bool := c = '-' || c.isDigit || (c.toNat ≥ 97 && c.toNat ≤ 102)

theorem isDoubleSpecial_of_isUuidChar {c : Char} (h : isUuidChar c = true) :
    isDoubleSpecial c = false := by
  simp only [isDoubleSpecial, Bool.or_eq_false_iff, decide_eq_false_iff_not]
  refine ⟨⟨⟨?_, ?_⟩, ?_⟩, ?_⟩ <;> (rintro rfl; revert h; decide)

theorem ne_colon_of_isUuidChar {c : Char} (h : isUuidChar c = true) : c ≠ ':' := by
  rintro rfl
  revert h
  decide

theorem isLiteral_of_isUuidChar {uuid : List Char} (h : ∀ c ∈ uuid, isUuidChar c = true) :
    IsLiteral uuid :=
  isLiteral_of_forall fun c hc => isDoubleSpecial_of_isUuidChar (h c hc)

/-! ### Java process builders -/

/-- What every process builder is given. -/
structure JavaProcessBuilder where
  jvmArguments : List Char
  mainClass : Option (List Char)
  workingDirectory : Option (List Char)

namespace JavaProcessBuilder

variable (b : JavaProcessBuilder)

/-- One more argument, and a blank after it. -/
def addJVMArgument (argument : List Char) : JavaProcessBuilder :=
  { b with jvmArguments := b.jvmArguments ++ (trim isTrimmed argument ++ [' ']) }

/-- The arguments in one text. -/
def getJVMArguments : List Char := trim isTrimmed b.jvmArguments

/-- These arguments and no others. -/
def setJVMArguments (arguments : List (List Char)) : JavaProcessBuilder :=
  arguments.foldl addJVMArgument { b with jvmArguments := [] }

/-- The program is taken from the path if no home directory of Java is known. -/
def appendJavaBinPath (command : List Char) (platform : Platform) : List Char :=
  match platform.getJavaHomeDirectory with
  | some javaHome => command ++ javaHome ++ "bin".toList ++ [platform.separator] ++ "java ".toList
  | none => command ++ "java ".toList

/-- No blank is appended if there are no arguments. -/
def appendJVMArguments (command : List Char) : List Char :=
  if b.jvmArguments.length > 0 then command ++ b.getJVMArguments ++ [' '] else command

end JavaProcessBuilder

/-! ### The arguments of the virtual machine -/

section JVMArguments

variable {b : JavaProcessBuilder} {arguments : List (List Char)} {word : List Char}

theorem isTrimmed_of_isBareChar {c : Char} (h : isBareChar c = true) : isTrimmed c = false := by
  simp only [isBareChar, Bool.and_eq_true, decide_eq_true_eq] at h
  have hlt : ' '.toNat < c.toNat := h.1.1.1.1.1.1.1
  exact decide_eq_false (by simpa using hlt)

theorem survivesTrim_of_isBare (h : ∀ w ∈ arguments, IsBare w) :
    SurvivesTrim isTrimmed arguments := by
  refine ⟨fun w hw c hc => ?_, fun w hw c hc => ?_⟩
  · exact isTrimmed_of_isBareChar
      ((h w (List.mem_of_mem_head? hw)).2.2 c (List.mem_of_mem_head? hc))
  · exact isTrimmed_of_isBareChar
      ((h w (List.mem_of_mem_getLast? hw)).2.2 c (List.mem_of_mem_getLast? hc))

theorem trim_isBare (h : IsBare word) : trim isTrimmed word = word := by
  have hsurvives : SurvivesTrim isTrimmed [word] :=
    survivesTrim_of_isBare (List.forall_mem_singleton.mpr h)
  exact List.singleton_inj.mp (trimEnds_of_survivesTrim hsurvives)

theorem setJVMArguments_eq (h : ∀ w ∈ arguments, IsBare w) :
    b.setJVMArguments arguments = { b with jvmArguments := terminated ' ' arguments } := by
  have hfold (text : List Char) :
      arguments.foldl JavaProcessBuilder.addJVMArgument { b with jvmArguments := text } =
        { b with jvmArguments := text ++ terminated ' ' arguments } := by
    induction arguments generalizing text with
    | nil => simp [terminated]
    | cons w rest ih =>
      obtain ⟨hw, hrest⟩ := List.forall_mem_cons.mp h
      rw [List.foldl_cons, JavaProcessBuilder.addJVMArgument, trim_isBare hw, ih hrest]
      simp [terminated]
  exact hfold []

theorem appendJVMArguments_eq (hb : b.jvmArguments = terminated ' ' arguments)
    (h : ∀ w ∈ arguments, IsBare w) (command : List Char) :
    b.appendJVMArguments command = command ++ terminated ' ' arguments := by
  by_cases hne : arguments = []
  · subst hne
    simp [JavaProcessBuilder.appendJVMArguments, hb, terminated]
  · have hany : ∀ w ∈ arguments, w.any (!isTrimmed ·) = true := by
      intro w hw
      obtain ⟨hnil, -, hall⟩ := h w hw
      obtain ⟨c, cs, rfl⟩ := List.exists_cons_of_ne_nil hnil
      simp [isTrimmed_of_isBareChar (hall c (List.mem_cons_self ..))]
    have htrim : b.getJVMArguments = [' '].intercalate arguments := by
      rw [JavaProcessBuilder.getJVMArguments, hb, trim_terminated rfl hany hne,
        trimEnds_of_survivesTrim (survivesTrim_of_isBare h)]
    obtain ⟨init, last, rfl⟩ := (List.eq_nil_or_concat' arguments).resolve_left hne
    have hlength : 0 < b.jvmArguments.length := by
      rw [hb, List.length_pos_iff]
      simp [terminated]
    rw [JavaProcessBuilder.appendJVMArguments, if_pos hlength, htrim, intercalate_concat]
    simp [terminated]

theorem passes_terminated (h : ∀ w ∈ arguments, IsBare w) :
    Passes (terminated ' ' arguments) arguments := by
  induction arguments with
  | nil => exact passes_nil
  | cons w rest ih =>
    obtain ⟨hw, hrest⟩ := List.forall_mem_cons.mp h
    exact passes_append (passes_bare hw) (ih hrest)

/-- **Bare arguments of the virtual machine** become one word each. -/
theorem passes_appendJVMArguments {base : JavaProcessBuilder} {command : List Char}
    {words : List (List Char)} (hb : b = base.setJVMArguments arguments)
    (h : ∀ w ∈ arguments, IsBare w) (hcommand : Passes command words) :
    Passes (b.appendJVMArguments command) (words ++ arguments) := by
  rw [appendJVMArguments_eq (by rw [hb, setJVMArguments_eq h]) h]
  exact passes_append hcommand (passes_terminated h)

end JVMArguments

/-! ### The main class and its arguments -/

/-- A name of a class, as far as the shell is concerned: the names of nested classes have a `$`. -/
def IsClassName (mainClass : List Char) : Prop :=
  mainClass ≠ [] ∧ (∀ c ∈ mainClass.head?, isBareHead c = true) ∧
    ∀ c ∈ mainClass, isBareChar c = true ∨ c = '$'

instance (mainClass : List Char) : Decidable (IsClassName mainClass) :=
  decidable_of_iff (mainClass ≠ [] ∧ mainClass.head?.all isBareHead = true ∧
    mainClass.all (fun c => isBareChar c || c = '$') = true)
    (by simp [IsClassName, Option.all_eq_true])

section Arguments

variable {platform : SimplePlatform} {command mainClass word : List Char}
  {words parameters : List (List Char)}

theorem IsClassName.isBare (h : IsClassName mainClass) (hdollar : '$' ∉ mainClass) :
    IsBare mainClass := by
  refine ⟨h.1, h.2.1, fun c hc => (h.2.2 c hc).resolve_right ?_⟩
  rintro rfl
  exact hdollar hc

/-- The shell expands the name of a nested class. -/
theorem run_of_dollar (h : IsClassName mainClass) (hdollar : '$' ∈ mainClass) :
    run ⟨words, .blank⟩ mainClass = none := by
  obtain ⟨before, rest, rfl, hbefore⟩ := List.eq_append_cons_of_mem hdollar
  obtain ⟨-, hhead, hall⟩ := h
  have hstep {s : State} (hexpands : s.mode.expands = true) : run s ('$' :: rest) = none := by
    rw [run, step_dollar hexpands, Option.bind_none]
  rw [run_append]
  by_cases hnil : before = []
  · subst hnil
    exact @hstep ⟨words, .blank⟩ rfl
  · have hbare : IsBare before := by
      refine ⟨hnil, fun c hc => hhead c ?_, fun c hc => ?_⟩
      · rw [List.head?_append, Option.mem_def.mp hc]
        rfl
      · refine (hall c (List.mem_append_left _ hc)).resolve_right ?_
        rintro rfl
        exact hbefore hc
    rw [run_of_isBare hbare, Option.bind_some]
    exact @hstep ⟨words, .plain before⟩ rfl

/-- **A command for `java`.** After words that are passed, the main class and its arguments are
read as intended exactly if the class is not nested and each argument means itself in double
quotes. -/
theorem tokenise_appendCommandLineArguments_iff (hcommand : Passes command words)
    (hquote : '"' ∉ words.flatten) (hmain : IsClassName mainClass) :
    tokenise (JavaProcessBuilder.appendCommandLineArguments (command ++ mainClass ++ [' '])
        platform (some (parameters.map some))) =
        some (words ++ mainClass :: parameters) ↔
      '$' ∉ mainClass ∧ ∀ parameter ∈ parameters, IsLiteral parameter := by
  rw [appendCommandLineArguments_eq]
  by_cases hdollar : '$' ∈ mainClass
  · refine iff_of_false ?_ fun h => h.1 hdollar
    rw [List.append_assoc, List.append_assoc, tokenise_append hcommand, run_append,
      run_of_dollar hmain hdollar]
    rintro ⟨⟩
  · have hbare := hmain.isBare hdollar
    have hpasses : Passes (command ++ mainClass ++ [' ']) (words ++ [mainClass]) := by
      rw [List.append_assoc]
      exact passes_append hcommand (passes_bare hbare)
    rw [and_iff_right hdollar]
    cases parameters with
    | nil =>
      rw [List.flatMap_nil, List.append_nil]
      exact iff_of_true (tokenise_of_passes hpasses) (by simp)
    | cons parameter rest =>
      have hnone : '"' ∉ (words ++ [mainClass]).flatten := by
        simpa [notMem_of_isBare hbare] using hquote
      rw [flatMap_doubleQuoted_cons, tokenise_append hpasses,
        ← finish_doubleQuoted_iff (.inr rfl) hnone, List.append_assoc]
      rfl

end Arguments

/-! ### Hosts -/

/-- A regular file that is uploaded. -/
structure LocalFile where
  name : List Char
  content : List UInt8
deriving DecidableEq

/-- What a process builder asks of a host. -/
inductive HostCall where
  | execute (command : List Char)
  | upload (source : LocalFile) (destination : List Char)
  | uploadAll (sources : List LocalFile) (destination : List Char)
  | executeAt (workingDirectory command : List Char)
deriving DecidableEq

/-- `APPENDER`. -/
def Commands.appender (platform : SimplePlatform) (params : List (List Char)) : List Char :=
  (if usesShell platform then "; ".toList else " && ".toList).intercalate params

/-- The text that a shell is given on a remote host. -/
def SSHHost.execute (platform : Platform) :
    HostCall → Except CommandException (Option (List Char))
  | .execute command => .ok (some ("echo $$;".toList ++ command))
  | .executeAt workingDirectory command =>
    (Commands.changeDirectory platform.toSimplePlatform [some workingDirectory]).map
      fun setWorkingDirectory =>
        some ("echo $$;".toList ++
          Commands.appender platform.toSimplePlatform [setWorkingDirectory, command])
  | _ => .ok none

/-- The text that a shell is given on the local host, and its working directory. -/
def LocalHost.execute : HostCall → Option (List Char × Option (List Char))
  | .execute command => some (command, none)
  | .executeAt workingDirectory command => some (command, some workingDirectory)
  | _ => none

/-- What is on a host: the paths that name directories, and the content of files. -/
structure HostFiles where
  isDirectory : List Char → Bool
  files : List Char → Option (List UInt8)

namespace HostFiles

/-- A file is put into a directory, over a file of the same name. -/
def put (directory : List Char) (files : List Char → Option (List UInt8)) (source : LocalFile) :
    List Char → Option (List UInt8) :=
  Function.update files (directory ++ source.name) (some source.content)

/-- `upload`. A destination whose path ends with a separator is a directory. -/
def upload (platform : Platform) (host : HostFiles) (source : LocalFile)
    (destination : List Char) : HostFiles :=
  if destination.getLast? = some platform.separator || host.isDirectory destination then
    { host with
      files := put (SimplePlatform.addTailingSeparator platform.separator destination) host.files
        source }
  else { host with files := Function.update host.files destination (some source.content) }

/-- What a call makes of the files. -/
def call (platform : Platform) (host : HostFiles) : HostCall → HostFiles
  | .upload source destination => host.upload platform source destination
  | .uploadAll sources destination =>
    { host with
      files := sources.foldl
        (put (SimplePlatform.addTailingSeparator platform.separator destination)) host.files }
  | _ => host

/-- What is on the host after these calls. -/
def after (platform : Platform) (host : HostFiles) (calls : List HostCall) : HostFiles :=
  calls.foldl (HostFiles.call platform) host

end HostFiles

/-- Wherever the host is, the shell runs one program with these words. On a remote host it tells
its process id first, and then changes to the working directory. -/
structure RunsProgram (platform : Platform) (workingDirectory command : List Char)
    (words : List (List Char)) : Prop where
  locally : ∃ text, LocalHost.execute (.executeAt workingDirectory command) =
    some (text, some workingDirectory) ∧ tokenise text = some words
  remotely : ∀ pid : List Char, (∀ c ∈ pid, c.isDigit = true) → ∃ text,
    SSHHost.execute platform (.executeAt workingDirectory command) = .ok (some text) ∧
      readList pid text =
        some [["echo".toList, pid], ["cd".toList, workingDirectory], words]

section Hosts

variable {platform : Platform} {workingDirectory command : List Char} {words : List (List Char)}

/-- What a remote shell runs: the three commands of the text. -/
theorem readList_execute (hshell : Commands.usesShell platform.toSimplePlatform = true)
    (hdirectory : IsLiteral workingDirectory) (hcommand : tokenise command = some words)
    (hne : words ≠ []) (pid : List Char) :
    ∃ text, SSHHost.execute platform (.executeAt workingDirectory command) = .ok (some text) ∧
      readList pid text = some [["echo".toList, pid], ["cd".toList, workingDirectory], words] := by
  refine ⟨"echo $$;".toList ++ ("cd ".toList ++ doubleQuoted workingDirectory ++ ";".toList ++
    (' ' :: command)), ?_, ?_⟩
  · simp [SSHHost.execute, Commands.changeDirectory, append_quote, Commands.appender, hshell,
      List.intercalate, Except.map]
  · have hecho : runList pid ⟨[], ⟨[], .blank⟩, false⟩ "echo $$;".toList =
        some ⟨[["echo".toList, pid]], ⟨[], .blank⟩, false⟩ := rfl
    have hcd : run ⟨[], .blank⟩ ("cd ".toList ++ doubleQuoted workingDirectory) =
        some ⟨["cd".toList], .plain workingDirectory⟩ := by
      have hquote : run ⟨[], .blank⟩ ("cd ".toList ++ doubleQuoted workingDirectory) =
          run ⟨["cd".toList], inside false []⟩ (workingDirectory ++ ['"']) := rfl
      rw [hquote, run_of_isLiteralFrom hdirectory]
      rfl
    have hblank : tokenise (' ' :: command) = some words := hcommand
    rw [readList, runList_append, hecho, Option.bind_some, runList_append,
      runList_semicolon hcd rfl rfl (by simp), Option.bind_some,
      finishList_of_tokenise hblank hne]
    rfl

/-- **When the shell runs the program**: exactly if the command is read as one. -/
theorem runsProgram_iff (hshell : Commands.usesShell platform.toSimplePlatform = true)
    (hdirectory : IsLiteral workingDirectory) (hne : words ≠ []) :
    RunsProgram platform workingDirectory command words ↔ tokenise command = some words := by
  constructor
  · rintro ⟨⟨text, htext, hwords⟩, -⟩
    obtain rfl : command = text := congrArg Prod.fst (Option.some.inj htext)
    exact hwords
  · intro h
    exact ⟨⟨command, rfl, h⟩, fun pid _ => readList_execute hshell hdirectory h hne pid⟩

end Hosts

/-! ### Files that are put on a host -/

section Files

variable {directory path : List Char} {files : List Char → Option (List UInt8)}
  {sources : List LocalFile} {source : LocalFile}

theorem put_self : HostFiles.put directory files source (directory ++ source.name) =
    some source.content := Function.update_self ..

theorem put_of_ne (h : path ≠ directory ++ source.name) :
    HostFiles.put directory files source path = files path := Function.update_of_ne h ..

/-- What is not put there stays as it is. -/
theorem put_all_of_ne (h : ∀ source ∈ sources, path ≠ directory ++ source.name) :
    sources.foldl (HostFiles.put directory) files path = files path := by
  induction sources generalizing files with
  | nil => rfl
  | cons source rest ih =>
    obtain ⟨hsource, hrest⟩ := List.forall_mem_cons.mp h
    rw [List.foldl_cons, ih hrest, put_of_ne hsource]

/-- **Files that are put into one directory** are all there exactly if no two of one name differ. -/
theorem put_all_iff :
    (∀ source ∈ sources, sources.foldl (HostFiles.put directory) files
        (directory ++ source.name) = some source.content) ↔
      ∀ source ∈ sources, ∀ other ∈ sources, source.name = other.name →
        source.content = other.content := by
  constructor
  · intro h source hsource other hother hname
    have hcontent := h source hsource
    rw [hname, h other hother] at hcontent
    exact (Option.some.inj hcontent).symm
  · -- By induction from the last file on, which is the one that stays.
    intro h
    induction sources using List.reverseRecOn with
    | nil => nofun
    | append_singleton init last ih =>
      intro source hsource
      rw [List.foldl_concat]
      by_cases hname : source.name = last.name
      · rw [hname, put_self, h source hsource last (by simp) hname]
      · rw [put_of_ne fun hpath => hname (List.append_cancel_left hpath)]
        refine ih (fun source hs other ho => ?_) source ?_
        · exact h source (List.mem_append_left _ hs) other (List.mem_append_left _ ho)
        · refine (List.mem_append.mp hsource).resolve_right fun hlast => hname ?_
          rw [List.mem_singleton.mp hlast]

/-- The last file stays in any case. -/
theorem put_all_concat : (sources ++ [source]).foldl (HostFiles.put directory) files
    (directory ++ source.name) = some source.content := by
  rw [List.foldl_concat, put_self]

end Files

/-- The entries of a class path. -/
def classPathEntries (platform : Platform) (classPath : List Char) : List (List Char) :=
  classPath.splitOn platform.pathSeparator

end Shabdiz
