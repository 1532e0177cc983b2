import Shabdiz.Host.JavaCommand
import Shabdiz.Text.Numeral

/-!
# A Java process with uploaded files

`FileBasedJavaProcessBuilder` sends the files of its class path in one archive. The class path of
the command has the working directory, all archives in it, and the directories that were sent. Two
files of the set may have the same name in different places; a directory is on the class path once.

The command is right, but `start` does not come to it. It uploads the archive to the working
directory, which nobody has made, by a path without a separator at its end; so the archive becomes
a file of that name, and no program can be run in it.

The name of the working directory is chosen from an identifier, which is a parameter, and so are the
number in the name of the archive, its content, and how the calls to the host end.

## Main definitions

* `FileBasedJavaProcessBuilder.assembleRemoteJavaCommand`, `FileBasedJavaProcessBuilder.start`
* `FileBasedJavaProcessBuilder.directoryNames` — the directories that were sent, each once
* `LocalHost.Ends`, `SSHHost.Ends` — what is relied on of the calls to the hosts

## Main results

* `appendClasspathDirectoryNames_eq` — each directory that was sent is appended once
* `classPathEntries_classPath`, `nodup_directoryNames`, `mem_directoryNames` — what the class path
  consists of
* `runsProgram_assembleRemoteJavaCommand_iff` — when the shell would run the program
* `start_fails` — the program is not started
-/

namespace Shabdiz

open Shell

/-! ### Calls to a host -/

/-- How a call to a host ends, when the output of its process has been awaited. -/
inductive HostCallEnd where
  | returned
  | threwIOException
  /-- Something else has been thrown. -/
  | threw
deriving DecidableEq

/-- What is relied on of a local host: a process is not started in what is not a directory. -/
def LocalHost.Ends (host : HostFiles) (ends : HostCall → HostCallEnd) : Prop :=
  ∀ workingDirectory command, host.isDirectory workingDirectory = false →
    ends (.executeAt workingDirectory command) ≠ .returned

/-- What is relied on of a remote host, whose shell has the process id `pid`: an error output of the
commands that it reads is thrown, and `cd` has one for what is not a directory. -/
structure SSHHost.Ends (platform : Platform) (pid : List Char) (host : HostFiles)
    (errorOutput : List (List Char) → List Char) (ends : HostCall → HostCallEnd) : Prop where
  throws : ∀ workingDirectory command text commands,
    SSHHost.execute platform (.executeAt workingDirectory command) = .ok (some text) →
      readList pid text = some commands → (∃ words ∈ commands, errorOutput words ≠ []) →
        ends (.executeAt workingDirectory command) ≠ .returned
  complains : ∀ path, host.isDirectory path = false → errorOutput ["cd".toList, path] ≠ []

/-! ### The process builder -/

/-- A file of the class path. -/
structure ClasspathFile where
  name : List Char
  isDirectory : Bool
deriving DecidableEq

/-- `classpath` is in the order of iterating over the set. -/
structure FileBasedJavaProcessBuilder extends JavaProcessBuilder where
  classpath : List ClasspathFile

namespace FileBasedJavaProcessBuilder

/-- The names that have been appended are kept, beside the command. -/
def appendClasspathDirectoryNames (classpath : List ClasspathFile) (command : List Char)
    (platform : Platform) : List Char :=
  (classpath.foldl
    (fun (state : List Char × List (List Char)) entry =>
      if entry.isDirectory && !state.2.contains entry.name then
        (state.1 ++ entry.name ++ [platform.pathSeparator], state.2 ++ [entry.name])
      else state)
    (command, [])).1

variable (b : FileBasedJavaProcessBuilder)

/-- The working directory comes first, and all archives in it come last. -/
def appendClasspath (command : List Char) (platform : Platform) : List Char :=
  let command := command ++ "-classpath".toList ++ [' '] ++ ['"'] ++ ['.'] ++
    [platform.pathSeparator]
  appendClasspathDirectoryNames b.classpath command platform ++ ['*'] ++ ['"'] ++ [' ']

/-- `JavaProcessBuilder.appendMainClass`, which does not check the name. -/
def appendMainClass (command : List Char) : List Char :=
  StringBuilder.append command b.mainClass ++ [' ']

/-- The command for `java`. -/
def assembleRemoteJavaCommand (platform : Platform) (parameters : List (Option (List Char))) :
    List Char :=
  let command := JavaProcessBuilder.appendJavaBinPath [] platform
  let command := b.appendJVMArguments command
  let command := b.appendClasspath command platform
  let command := b.appendMainClass command
  JavaProcessBuilder.appendCommandLineArguments command platform.toSimplePlatform (some parameters)

/-- The path has no separator at its end. -/
def getRemoteWorkingDirectory (platform : Platform) (uuid : List Char) : List Char :=
  platform.tempDirectory ++ "shabdiz_".toList ++ uuid

/-- The name that `File.createTempFile` gives to the archive. -/
def compressedClasspathName (number : List Char) : List Char :=
  "shabdiz_compressed_cp".toList ++ number ++ ".zip".toList

/-- The archive is taken apart with `jar`. -/
def jarCall (workingDirectory name : List Char) : HostCall :=
  .executeAt workingDirectory ("jar xf ".toList ++ name)

/-- The archive is taken apart with `unzip`, if `jar` has failed. -/
def unzipCall (workingDirectory name : List Char) : HostCall :=
  .executeAt workingDirectory ("unzip -q -o ".toList ++ name)

/-- The calls of `decompressOnHost`, and whether it returns. An interrupt is thrown on as an
`IOException`. -/
def decompressOnHost (ends : HostCall → HostCallEnd) (workingDirectory name : List Char) :
    List HostCall × Bool :=
  match ends (jarCall workingDirectory name) with
  | .returned => ([jarCall workingDirectory name], true)
  | .threwIOException =>
    ([jarCall workingDirectory name, unzipCall workingDirectory name],
      ends (unzipCall workingDirectory name) = .returned)
  | .threw => ([jarCall workingDirectory name], false)

/-- The calls to the host, and the call that starts the program unless one of them has thrown. -/
def start (platform : Platform) (uuid : List Char) (archive : LocalFile)
    (parameters : List (Option (List Char))) (ends : HostCall → HostCallEnd) :
    List HostCall × Option HostCall :=
  let remoteWorkingDirectory := getRemoteWorkingDirectory platform uuid
  let upload := HostCall.upload archive remoteWorkingDirectory
  if ends upload = .returned then
    let decompressed := decompressOnHost ends remoteWorkingDirectory archive.name
    (upload :: decompressed.1,
      if decompressed.2 then
        some (.executeAt remoteWorkingDirectory (b.assembleRemoteJavaCommand platform parameters))
      else none)
  else ([upload], none)

/-! ### The class path -/

/-- A name is added if it is new. -/
def addName (names : List (List Char)) (name : List Char) : List (List Char) :=
  if names.contains name then names else names ++ [name]

/-- The names of the directories that were sent, each of them once, in the order in which they come
first. -/
def directoryNames (classpath : List ClasspathFile) : List (List Char) :=
  ((classpath.filter (·.isDirectory)).map (·.name)).foldl addName []

section ClassPath

variable {b : FileBasedJavaProcessBuilder} {platform : Platform} {command name : List Char}
  {classpath : List ClasspathFile}

/-- One more directory is appended if its name was not. -/
theorem foldl_appendClasspathDirectoryNames (names : List (List Char)) :
    (classpath.foldl
      (fun (state : List Char × List (List Char)) entry =>
        if entry.isDirectory && !state.2.contains entry.name then
          (state.1 ++ entry.name ++ [platform.pathSeparator], state.2 ++ [entry.name])
        else state)
      (command ++ terminated platform.pathSeparator names, names)) =
    (command ++ terminated platform.pathSeparator
        (((classpath.filter (·.isDirectory)).map (·.name)).foldl addName names),
      ((classpath.filter (·.isDirectory)).map (·.name)).foldl addName names) := by
  induction classpath generalizing names with
  | nil => rfl
  | cons entry rest ih =>
    rw [List.foldl_cons]
    cases hdirectory : entry.isDirectory with
    | false => simpa [hdirectory] using ih names
    | true =>
      rw [List.filter_cons_of_pos (by simpa using hdirectory), List.map_cons, List.foldl_cons]
      by_cases hname : entry.name ∈ names
      · simpa [hname, addName, hdirectory] using ih names
      · have happend : command ++ terminated platform.pathSeparator names ++ entry.name ++
            [platform.pathSeparator] =
            command ++ terminated platform.pathSeparator (names ++ [entry.name]) := by
          simp [terminated]
        have hnew : names.contains entry.name = false := by simp [hname]
        simp only [hnew, Bool.not_false, Bool.and_self, if_true, happend]
        rw [addName, if_neg (by simpa using hname)]
        exact ih (names ++ [entry.name])

/-- **Each directory that was sent** is appended once. -/
theorem appendClasspathDirectoryNames_eq :
    appendClasspathDirectoryNames classpath command platform =
      command ++ terminated platform.pathSeparator (directoryNames classpath) := by
  have hfold := @foldl_appendClasspathDirectoryNames platform command classpath []
  rw [show command ++ terminated platform.pathSeparator [] = command by simp [terminated]] at hfold
  rw [appendClasspathDirectoryNames, hfold]
  rfl

theorem nodup_addName {names : List (List Char)} (h : names.Nodup) :
    (addName names name).Nodup := by
  rw [addName]
  split
  · exact h
  · rename_i hname
    refine List.nodup_append.mpr ⟨h, List.nodup_singleton _, fun other hother new hnew => ?_⟩
    rintro rfl
    exact hname (List.contains_iff_mem.mpr (List.mem_singleton.mp hnew ▸ hother))

theorem mem_addName {names : List (List Char)} {new : List Char} :
    name ∈ addName names new ↔ name ∈ names ∨ name = new := by
  rw [addName]
  split
  · rename_i hnew
    refine ⟨.inl, ?_⟩
    rintro (h | rfl)
    · exact h
    · exact List.contains_iff_mem.mp hnew
  · rw [List.mem_append, List.mem_singleton]

theorem nodup_foldl_addName {sent names : List (List Char)} (h : names.Nodup) :
    (sent.foldl addName names).Nodup := by
  induction sent generalizing names with
  | nil => exact h
  | cons name rest ih => exact ih (nodup_addName h)

theorem mem_foldl_addName {sent names : List (List Char)} :
    name ∈ sent.foldl addName names ↔ name ∈ names ∨ name ∈ sent := by
  induction sent generalizing names with
  | nil => simp
  | cons other rest ih => rw [List.foldl_cons, ih, mem_addName, or_assoc, List.mem_cons]

/-- **No directory is on the class path twice**, whatever files share their names. -/
theorem nodup_directoryNames : (directoryNames classpath).Nodup :=
  nodup_foldl_addName List.nodup_nil

/-- **Every directory that was sent is on it**, and nothing else. -/
theorem mem_directoryNames :
    name ∈ directoryNames classpath ↔ ∃ entry ∈ classpath, entry.isDirectory = true ∧
      entry.name = name := by
  rw [directoryNames, mem_foldl_addName]
  simp [and_assoc]

/-- The class path of the command. -/
def classPath (b : FileBasedJavaProcessBuilder) (platform : Platform) : List Char :=
  terminated platform.pathSeparator (['.'] :: directoryNames b.classpath) ++ ['*']

theorem appendClasspath_eq :
    b.appendClasspath command platform =
      command ++ ("-classpath ".toList ++ doubleQuoted (classPath b platform) ++ [' ']) := by
  rw [appendClasspath, appendClasspathDirectoryNames_eq]
  simp [classPath, terminated, doubleQuoted]

/-- **What the class path consists of**, if no directory has a separator in its name. -/
theorem classPathEntries_classPath
    (h : ∀ name ∈ directoryNames b.classpath, platform.pathSeparator ∉ name)
    (hdot : platform.pathSeparator ≠ '.') (hstar : platform.pathSeparator ≠ '*') :
    classPathEntries platform (classPath b platform) =
      [['.']] ++ directoryNames b.classpath ++ [['*']] := by
  rw [classPathEntries, classPath, ← intercalate_concat]
  refine List.splitOn_intercalate _ (fun entry hentry => ?_) (by simp)
  simp only [List.cons_append, List.mem_cons, List.mem_append, List.not_mem_nil, or_false] at hentry
  rcases hentry with rfl | hentry | rfl
  · simpa using hdot
  · exact h entry hentry
  · simpa using hstar

end ClassPath

/-! ### Starting the process -/

section Start

variable {b : FileBasedJavaProcessBuilder} {base : JavaProcessBuilder} {platform : Platform}
  {uuid mainClass number path : List Char} {jvmArguments parameters : List (List Char)}
  {parameters' : List (Option (List Char))} {host : HostFiles} {archive : LocalFile}
  {ends : HostCall → HostCallEnd}

theorem isLiteral_terminated {names : List (List Char)} (h : ∀ name ∈ names, IsLiteral name) :
    IsLiteral (terminated ':' names ++ ['*']) := by
  induction names with
  | nil => decide
  | cons name rest ih =>
    obtain ⟨hname, hrest⟩ := List.forall_mem_cons.mp h
    have htext : terminated ':' (name :: rest) ++ ['*'] =
        name ++ (':' :: (terminated ':' rest ++ ['*'])) := by
      simp [terminated]
    have hcolon : IsLiteral ([':'] ++ (terminated ':' rest ++ ['*'])) :=
      isLiteral_append (by decide) (ih hrest)
    rw [htext]
    exact isLiteral_append hname hcolon

/-- The words with which `java` is started. -/
def words (b : FileBasedJavaProcessBuilder) (platform : Platform)
    (jvmArguments : List (List Char)) : List (List Char) :=
  ["java".toList] ++ jvmArguments ++ ["-classpath".toList, classPath b platform]

/-- **When the shell would run the program.** On a Unix-based platform, with bare arguments of the
virtual machine, a literal working directory and literal names of directories, the command runs
`java` with the words that were to be passed exactly if the main class is not nested and each
argument of the program means itself in double quotes. -/
theorem runsProgram_assembleRemoteJavaCommand_iff
    (hunix : Platforms.isUnixBased platform.toSimplePlatform = true)
    (htemp : IsLiteral (getRemoteWorkingDirectory platform uuid))
    (hnames : ∀ entry ∈ b.classpath, entry.isDirectory = true → IsLiteral entry.name)
    (hb : b.toJavaProcessBuilder = base.setJVMArguments jvmArguments)
    (hjvm : ∀ w ∈ jvmArguments, IsBare w) (hmain : b.mainClass = some mainClass)
    (hclass : IsClassName mainClass) :
    RunsProgram platform (getRemoteWorkingDirectory platform uuid)
        (b.assembleRemoteJavaCommand platform (parameters.map some))
        (words b platform jvmArguments ++ mainClass :: parameters) ↔
      '$' ∉ mainClass ∧ ∀ parameter ∈ parameters, IsLiteral parameter := by
  have hpath : platform.pathSeparator = ':' := by
    simp only [Platforms.isUnixBased, Bool.and_eq_true, decide_eq_true_eq] at hunix
    exact hunix.1
  have hshell : Commands.usesShell platform.toSimplePlatform = true := by
    simp [Commands.usesShell, hunix]
  have hliteral : IsLiteral (classPath b platform) := by
    rw [classPath, hpath]
    refine isLiteral_terminated (List.forall_mem_cons.mpr ⟨by decide, fun name h => ?_⟩)
    obtain ⟨entry, hentry, hdirectory, rfl⟩ := mem_directoryNames.mp h
    exact hnames entry hentry hdirectory
  have hclassPath : Passes
      ("-classpath ".toList ++ doubleQuoted (classPath b platform) ++ [' '])
      (["-classpath".toList] ++ [classPath b platform]) := by
    rw [List.append_assoc]
    exact passes_append rfl (passes_doubleQuoted hliteral)
  have hpasses : Passes (b.appendClasspath (b.appendJVMArguments
      (JavaProcessBuilder.appendJavaBinPath [] platform)) platform)
      (words b platform jvmArguments) := by
    rw [appendClasspath_eq]
    exact passes_append (passes_appendJVMArguments hb hjvm rfl) hclassPath
  have hquote : '"' ∉ (words b platform jvmArguments).flatten := by
    have hwords : '"' ∉ jvmArguments.flatten := fun h => by
      obtain ⟨w, hw, hmem⟩ := List.mem_flatten.mp h
      exact notMem_of_isBare (hjvm w hw) hmem
    simp [words, hwords, notMem_of_isLiteralFrom hliteral]
  rw [runsProgram_iff hshell htemp (by simp [words]),
    ← tokenise_appendCommandLineArguments_iff hpasses hquote hclass, assembleRemoteJavaCommand,
    appendMainClass, hmain, StringBuilder.append, Option.getD_some]

/-! ### How far `start` comes -/

theorem isBareChar_of_isDigit {c : Char} (h : c.isDigit = true) : isBareChar c = true := by
  have hrange := isDigit_iff.mp h
  have hcases : c.toNat = 48 ∨ c.toNat = 49 ∨ c.toNat = 50 ∨ c.toNat = 51 ∨ c.toNat = 52 ∨
      c.toNat = 53 ∨ c.toNat = 54 ∨ c.toNat = 55 ∨ c.toNat = 56 ∨ c.toNat = 57 := by omega
  rw [← Char.ofNat_toNat c]
  rcases hcases with h | h | h | h | h | h | h | h | h | h <;> rw [h] <;> decide

theorem isBare_compressedClasspathName (h : ∀ c ∈ number, c.isDigit = true) :
    IsBare (compressedClasspathName number) := by
  have hbefore : IsBare "shabdiz_compressed_cp".toList := by decide
  have hafter : IsBare ".zip".toList := by decide
  have hnumber := isBare_append hbefore fun c hc => isBareChar_of_isDigit (h c hc)
  exact isBare_append hnumber hafter.2.2

/-- **The archive takes the place of the directory.** The path to which it is uploaded does not
end with a separator, so it is the path of the file itself. -/
theorem upload_archive (huuid : ∀ c ∈ uuid, c ≠ platform.separator) (hne : uuid ≠ [])
    (hfresh : host.isDirectory (getRemoteWorkingDirectory platform uuid) = false) :
    host.upload platform archive (getRemoteWorkingDirectory platform uuid) =
      { host with
        files := Function.update host.files (getRemoteWorkingDirectory platform uuid)
          (some archive.content) } := by
  have hlast : (getRemoteWorkingDirectory platform uuid).getLast? ≠ some platform.separator := by
    rw [getRemoteWorkingDirectory, List.getLast?_append_of_ne_nil _ hne]
    exact fun h => huuid _ (List.mem_of_getLast? h) rfl
  rw [HostFiles.upload, if_neg (by simp [hlast, hfresh])]

/-- Over SSH no command is run in what is not a directory. -/
theorem ne_returned_of_ends {pid command : List Char} {commandWords : List (List Char)}
    {errorOutput : List (List Char) → List Char}
    (hends : SSHHost.Ends platform pid host errorOutput ends)
    (hshell : Commands.usesShell platform.toSimplePlatform = true) (hpath : IsLiteral path)
    (hdirectory : host.isDirectory path = false)
    (hcommand : tokenise command = some commandWords) (hne : commandWords ≠ []) :
    ends (.executeAt path command) ≠ .returned := by
  obtain ⟨text, htext, hread⟩ := readList_execute hshell hpath hcommand hne pid
  exact hends.throws _ _ _ _ htext hread
    ⟨["cd".toList, path], by simp, hends.complains path hdirectory⟩

/-- If the archive cannot be taken apart, the program is not started. -/
theorem start_of_ne_returned
    (hjar : ends (jarCall (getRemoteWorkingDirectory platform uuid) archive.name) ≠ .returned)
    (hunzip : ends (unzipCall (getRemoteWorkingDirectory platform uuid) archive.name) ≠
      .returned) :
    (b.start platform uuid archive parameters' ends).2 = none ∧
      (b.start platform uuid archive parameters' ends).1 <+:
        [.upload archive (getRemoteWorkingDirectory platform uuid),
          jarCall (getRemoteWorkingDirectory platform uuid) archive.name,
          unzipCall (getRemoteWorkingDirectory platform uuid) archive.name] := by
  rw [start]
  split
  · rw [decompressOnHost]
    cases h : ends (jarCall (getRemoteWorkingDirectory platform uuid) archive.name) with
    | returned => exact absurd h hjar
    | threwIOException =>
      refine ⟨?_, List.prefix_rfl⟩
      simp [hunzip]
    | threw => exact ⟨rfl, [unzipCall _ _], rfl⟩
  · exact ⟨rfl, [jarCall _ _, unzipCall _ _], rfl⟩

/-- **The program is not started** on a host where the path of the working directory is not a
directory already: the archive becomes a file of that path, in which neither `jar` nor `unzip` can
be run. -/
theorem start_fails (hunix : Platforms.isUnixBased platform.toSimplePlatform = true)
    (htemp : IsLiteral platform.tempDirectory) (huuid : ∀ c ∈ uuid, isUuidChar c = true)
    (hne : uuid ≠ []) (hnumber : ∀ c ∈ number, c.isDigit = true)
    (hname : archive.name = compressedClasspathName number)
    (hfresh : host.isDirectory (getRemoteWorkingDirectory platform uuid) = false)
    (hends : LocalHost.Ends
        (host.upload platform archive (getRemoteWorkingDirectory platform uuid)) ends ∨
      ∃ pid errorOutput, SSHHost.Ends platform pid
        (host.upload platform archive (getRemoteWorkingDirectory platform uuid)) errorOutput
        ends) :
    (host.upload platform archive (getRemoteWorkingDirectory platform uuid)).files
        (getRemoteWorkingDirectory platform uuid) = some archive.content ∧
      (b.start platform uuid archive parameters' ends).2 = none ∧
        (b.start platform uuid archive parameters' ends).1 <+:
          [.upload archive (getRemoteWorkingDirectory platform uuid),
            jarCall (getRemoteWorkingDirectory platform uuid) archive.name,
            unzipCall (getRemoteWorkingDirectory platform uuid) archive.name] := by
  have hsep : platform.separator = '/' := by
    simp only [Platforms.isUnixBased, Bool.and_eq_true, decide_eq_true_eq] at hunix
    exact hunix.2
  have hshell : Commands.usesShell platform.toSimplePlatform = true := by
    simp [Commands.usesShell, hunix]
  have hpath : IsLiteral (getRemoteWorkingDirectory platform uuid) := by
    rw [getRemoteWorkingDirectory, List.append_assoc]
    exact isLiteral_append htemp (isLiteral_append (by decide) (isLiteral_of_isUuidChar huuid))
  have hslash : ∀ c ∈ uuid, c ≠ platform.separator := by
    rintro c hc rfl
    have huuid := huuid _ hc
    rw [hsep] at huuid
    exact absurd huuid (by decide)
  rw [upload_archive hslash hne hfresh] at hends ⊢
  have hbare := isBare_compressedClasspathName hnumber
  have hcommand (command : List Char) (words : List (List Char))
      (h : run ⟨[], .blank⟩ command = some ⟨words, .blank⟩) :
      ends (.executeAt (getRemoteWorkingDirectory platform uuid) (command ++ archive.name)) ≠
        .returned := by
    obtain hlocal | ⟨pid, errorOutput, hssh⟩ := hends
    · exact hlocal _ _ hfresh
    · have hread : tokenise (command ++ archive.name) =
          some (words ++ [compressedClasspathName number]) := by
        rw [tokenise_append h, hname, run_of_isBare hbare]
        rfl
      exact ne_returned_of_ends hssh hshell hpath hfresh hread (by simp)
  refine ⟨Function.update_self .., start_of_ne_returned ?_ ?_⟩
  · exact hcommand "jar xf ".toList ["jar".toList, "xf".toList] rfl
  · exact hcommand "unzip -q -o ".toList ["unzip".toList, "-q".toList, "-o".toList] rfl

/-- A new path, and a local host that starts nothing in what is not a directory. -/
theorem start_fails_unix :
    (HostFiles.upload (SimplePlatform.withTempDirectory ⟨':', '/', false⟩ "/tmp".toList)
        ⟨fun path => path = "/tmp".toList, fun _ => none⟩
        ⟨compressedClasspathName "7".toList, [80, 75]⟩ "/tmp/shabdiz_1f-0".toList).files
        "/tmp/shabdiz_1f-0".toList = some [80, 75] ∧
      (start ⟨⟨[], some "a.Main".toList, none⟩, [⟨"b.jar".toList, false⟩]⟩
        (SimplePlatform.withTempDirectory ⟨':', '/', false⟩ "/tmp".toList) "1f-0".toList
        ⟨compressedClasspathName "7".toList, [80, 75]⟩ [some "x".toList]
        (fun
          | .executeAt path _ => if path = "/tmp".toList then .returned else .threwIOException
          | _ => .returned)).2 = none ∧
      (start ⟨⟨[], some "a.Main".toList, none⟩, [⟨"b.jar".toList, false⟩]⟩
        (SimplePlatform.withTempDirectory ⟨':', '/', false⟩ "/tmp".toList) "1f-0".toList
        ⟨compressedClasspathName "7".toList, [80, 75]⟩ [some "x".toList]
        (fun
          | .executeAt path _ => if path = "/tmp".toList then .returned else .threwIOException
          | _ => .returned)).1 <+:
        [.upload ⟨compressedClasspathName "7".toList, [80, 75]⟩ "/tmp/shabdiz_1f-0".toList,
          jarCall "/tmp/shabdiz_1f-0".toList (compressedClasspathName "7".toList),
          unzipCall "/tmp/shabdiz_1f-0".toList (compressedClasspathName "7".toList)] :=
  start_fails rfl (by decide) (List.all_eq_true.mp (by decide)) (by decide)
    (List.all_eq_true.mp (by decide)) rfl rfl (.inl fun path command h hreturned => by
      have hne : path ≠ "/tmp".toList := by
        rintro rfl
        exact absurd h (by decide)
      exact absurd ((if_neg hne).symm.trans hreturned) nofun)

end Start

end FileBasedJavaProcessBuilder

end Shabdiz
