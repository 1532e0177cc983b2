import Shabdiz.Host.JavaCommand

/-!
# Starting a Java process

`AgentBasedJavaProcessBuilder.start` makes two directories on a host, puts the files there that the
new process needs, and lets a shell run `java` in one of them, or in another directory.

The process finds its configuration on its class path, and its agent in the file that the command
names. So whether it starts as it should depends on where the files are put, on which directories
the class path has, and on what the shell makes of the text. The files that were added come from
different directories and go to one, where a file takes the place of another of the same name.

An identifier of a temporary directory, the answer whether a file exists on the host and the
contents of the agent and of the configuration are parameters. A call to the host that fails ends
`start`.

## Main definitions

* `AgentBasedJavaProcessBuilder.assembleCommand`, `AgentBasedJavaProcessBuilder.start`
* `AgentBasedJavaProcessBuilder.UploadsAgree` — no upload takes the place of a different one
* `Prepares` — what is on the host when `java` is started
* `StartsJava` — the files are where the process looks for them, and the shell runs it

## Main results

* `files_startCalls` — what the calls put on the host
* `prepares_startCalls` — the files are where the process looks for them
* `startsJava_iff` — when the process is started as intended
-/

namespace Shabdiz

open Shell

/-! ### The process builder -/

/-- What `start` throws. -/
inductive StartException where
  | command (e : CommandException)
  | nullPointer (message : String)
deriving DecidableEq

/-- `uploads` are in the order of iterating over their set, and `configuration` is what is written
to the file of the configuration. -/
structure AgentBasedJavaProcessBuilder extends JavaProcessBuilder where
  uploads : List LocalFile
  alwaysUploadBootstrap : Bool
  configuration : List UInt8

namespace AgentBasedJavaProcessBuilder

/-- The directory of everything that Shabdiz puts on a host. -/
def getShabdizHomePathByPlatform (platform : Platform) : List Char :=
  platform.tempDirectory ++ "shabdiz".toList ++ [platform.separator]

/-- The directory of the agent, which processes share. -/
def getBootstrapHomePathByPlatform (platform : Platform) : List Char :=
  getShabdizHomePathByPlatform platform ++ ".bootstrap".toList ++ [platform.separator]

/-- The file of the agent. -/
def getBootstrapJarPathByPlatform (platform : Platform) : List Char :=
  getBootstrapHomePathByPlatform platform ++ "bootstrap.jar".toList

/-- The directory of the files of one process. -/
def createTempDirPathByPlatform (platform : Platform) (uuid : List Char) : List Char :=
  getShabdizHomePathByPlatform platform ++ "tmp".toList ++ [platform.separator] ++ uuid ++
    [platform.separator]

/-- On Cygwin the shell is to convert the path. -/
def appendBootstrpAgent (platform : Platform) (command bootstrapJar : List Char) : List Char :=
  let command := command ++ "-javaagent:".toList
  let command :=
    if platform.isCygwinPlatform then
      StringBuilder.append (command ++ "`cygpath -wp ".toList)
        (platform.quote (some bootstrapJar)) ++ "`".toList
    else StringBuilder.append command (platform.quote (some bootstrapJar))
  command ++ [' ']

variable (b : AgentBasedJavaProcessBuilder)

/-- The directory of the files is on the class path if it is not the working directory. -/
def appendClassPath (command : List Char) (platform : Platform) (remoteTmpDir : List Char) :
    List Char :=
  let pathSeparator := platform.pathSeparator
  let command := command ++ "-cp \".".toList ++ [pathSeparator]
  let command :=
    if b.workingDirectory.isSome then command ++ remoteTmpDir ++ [pathSeparator] ++ remoteTmpDir
    else command
  command ++ "*\"".toList ++ [' ']

/-- A main class has to be given. -/
def appendMainClass (command : List Char) : Except StartException (List Char) :=
  match b.mainClass with
  | none => .error (.nullPointer "main class must be specified")
  | some mainClass => .ok (command ++ mainClass ++ [' '])

/-- The command for `java`. -/
def assembleCommand (remoteTmpDir : List Char) (platform : Platform) (bootstrapJar : List Char)
    (parameters : List (Option (List Char))) : Except StartException (List Char) :=
  let command := JavaProcessBuilder.appendJavaBinPath [] platform
  let command := appendBootstrpAgent platform command bootstrapJar
  let command := b.appendJVMArguments command
  let command := b.appendClassPath command platform remoteTmpDir
  (b.appendMainClass command).map fun command =>
    JavaProcessBuilder.appendCommandLineArguments command platform.toSimplePlatform
      (some parameters)

/-- `EXISTS`. -/
def existsCommand (platform : Platform) (file : List Char) : List Char :=
  if Commands.usesShell platform.toSimplePlatform then
    "[ -e \"".toList ++ file ++ "\" ] && echo true || echo false".toList
  else "if exist \"".toList ++ file ++ "\" (echo true) else (echo false)".toList

/-- The calls of `uploadBootstrapJar`, on a host that answers whether it has the file. -/
def uploadBootstrapJar (platform : Platform) (existsOnHost : Bool) (agent : List UInt8) :
    List HostCall :=
  let upload := HostCall.upload ⟨"bootstrap.jar".toList, agent⟩
    (getBootstrapHomePathByPlatform platform)
  if b.alwaysUploadBootstrap then [upload]
  else
    .execute (existsCommand platform (getBootstrapJarPathByPlatform platform)) ::
      if existsOnHost then [] else [upload]

/-- The files that were added are uploaded in one call. -/
def uploadLocalClasspathFiles (workingDirectory : List Char) : List HostCall :=
  if b.uploads.isEmpty then [] else [.uploadAll b.uploads workingDirectory]

/-- The file of the configuration. -/
def configurationFile : LocalFile := ⟨"bootstrap.config".toList, b.configuration⟩

/-- The configuration is uploaded last. -/
def uploadBootstrapConfigurationFile (workingDirectory : List Char) : List HostCall :=
  [.upload b.configurationFile workingDirectory]

/-- The calls to the host before the command is assembled, and then the last call. -/
def start (platform : Platform) (uuid : List Char) (existsOnHost : Bool) (agent : List UInt8)
    (parameters : List (Option (List Char))) : List HostCall × Except StartException HostCall :=
  let remoteTmpDir := createTempDirPathByPlatform platform uuid
  match Commands.makeDirectories platform.toSimplePlatform
      [some (getBootstrapHomePathByPlatform platform), some remoteTmpDir] with
  | .error e => ([], .error (.command e))
  | .ok mkdirCommand =>
    (.execute mkdirCommand :: (b.uploadBootstrapJar platform existsOnHost agent ++
        b.uploadLocalClasspathFiles remoteTmpDir ++
        b.uploadBootstrapConfigurationFile remoteTmpDir),
      (b.assembleCommand remoteTmpDir platform (getBootstrapJarPathByPlatform platform)
        parameters).map (.executeAt (b.workingDirectory.getD remoteTmpDir)))

/-- What is put into the directory of the process, in this order. -/
def placedFiles : List LocalFile := b.uploads ++ [b.configurationFile]

/-- No two files of one name differ that are put into the directory of the process. -/
def UploadsAgree : Prop :=
  ∀ file ∈ b.placedFiles, ∀ other ∈ b.placedFiles, file.name = other.name →
    file.content = other.content

instance : Decidable b.UploadsAgree :=
  inferInstanceAs (Decidable (∀ file ∈ b.placedFiles, ∀ other ∈ b.placedFiles,
    file.name = other.name → file.content = other.content))

end AgentBasedJavaProcessBuilder

/-! ### What the process needs -/

/-- The directory that a path on a class path names. -/
def resolved (workingDirectory path : List Char) : List Char :=
  if path = [] ∨ path = ['.'] then workingDirectory
  else if path.head? = some '/' then path
  else SimplePlatform.addTailingSeparator '/' workingDirectory ++ path

/-- The words with which `java` is started. -/
def javaWords (bootstrapJar : List Char) (jvmArguments : List (List Char))
    (classPath mainClass : List Char) (parameters : List (List Char)) : List (List Char) :=
  ["java".toList, "-javaagent:".toList ++ bootstrapJar] ++ jvmArguments ++
    ["-cp".toList, classPath, mainClass] ++ parameters

/-- What is on the host when `java` is started, by calls to a host that answered whether it has the
file of the agent. `home` and `tmp` are the directories of the files, and `host` is what was there
before. -/
structure Prepares (b : AgentBasedJavaProcessBuilder) (platform : Platform) (existsOnHost : Bool)
    (agent : List UInt8) (host : HostFiles) (calls : List HostCall)
    (home tmp bootstrapJar workingDirectory classPath : List Char) : Prop where
  /-- The directories are made first. -/
  directories : ∃ text, calls.head? = some (.execute text) ∧
    tokenise text = some ["mkdir".toList, "-p".toList, home, tmp]
  /-- Every file is put into one of them. -/
  uploaded : ∀ path, (host.after platform calls).files path ≠ host.files path →
    ∃ name, path = home ++ name ∨ path = tmp ++ name
  /-- The file of the agent is put on the host, or the host has one. -/
  agent : (host.after platform calls).files bootstrapJar = some agent ∨
    existsOnHost = true ∧
      .execute (AgentBasedJavaProcessBuilder.existsCommand platform bootstrapJar) ∈ calls ∧
      (host.after platform calls).files bootstrapJar = host.files bootstrapJar
  /-- A directory of the class path has the configuration. -/
  configuration : ∃ entry ∈ classPathEntries platform classPath,
    (host.after platform calls).files
      (resolved workingDirectory entry ++ "bootstrap.config".toList) = some b.configuration
  /-- The files of one directory are on the class path, and it has the files that were added. -/
  files : ∃ directory, directory ++ ['*'] ∈ classPathEntries platform classPath ∧
    ∀ file ∈ b.uploads, (host.after platform calls).files
      (resolved workingDirectory directory ++ file.name) = some file.content

/-- The process is started as intended: with the arguments of the virtual machine, the main class
and the arguments of the program, and with its files where it looks for them. -/
def StartsJava (b : AgentBasedJavaProcessBuilder) (platform : Platform) (uuid : List Char)
    (existsOnHost : Bool) (agent : List UInt8) (host : HostFiles)
    (jvmArguments : List (List Char)) (mainClass : List Char)
    (parameters : List (List Char)) : Prop :=
  ∃ calls workingDirectory command home tmp bootstrapJar classPath,
    b.start platform uuid existsOnHost agent (parameters.map some) =
        (calls, .ok (.executeAt workingDirectory command)) ∧
      Prepares b platform existsOnHost agent host calls home tmp bootstrapJar workingDirectory
        classPath ∧
      RunsProgram platform workingDirectory command
        (javaWords bootstrapJar jvmArguments classPath mainClass parameters)

/-! ### Paths -/

section Paths

variable {platform : Platform} {uuid word rest : List Char}

theorem getLast?_createTempDirPathByPlatform :
    (AgentBasedJavaProcessBuilder.createTempDirPathByPlatform platform uuid).getLast? =
      some platform.separator := List.getLast?_concat

theorem getLast?_getBootstrapHomePathByPlatform :
    (AgentBasedJavaProcessBuilder.getBootstrapHomePathByPlatform platform).getLast? =
      some platform.separator := List.getLast?_concat

/-- The directories have no file in common. -/
theorem getBootstrapHomePathByPlatform_append_ne {name name' : List Char} :
    AgentBasedJavaProcessBuilder.getBootstrapHomePathByPlatform platform ++ name ≠
      AgentBasedJavaProcessBuilder.createTempDirPathByPlatform platform uuid ++ name' := by
  intro h
  simp only [AgentBasedJavaProcessBuilder.getBootstrapHomePathByPlatform,
    AgentBasedJavaProcessBuilder.createTempDirPathByPlatform, List.append_assoc] at h
  have hhead := congrArg List.head? (List.append_cancel_left h)
  exact absurd (Option.some.inj hhead) (by decide)

/-- A path that begins and ends with a separator names the directory itself. -/
theorem resolved_createTempDirPathByPlatform {directory : List Char}
    (hsep : platform.separator = '/') (habsolute : platform.tempDirectory.head? = some '/') :
    resolved directory (AgentBasedJavaProcessBuilder.createTempDirPathByPlatform platform uuid) =
      AgentBasedJavaProcessBuilder.createTempDirPathByPlatform platform uuid := by
  have hlast := @getLast?_createTempDirPathByPlatform platform uuid
  have hhead : (AgentBasedJavaProcessBuilder.createTempDirPathByPlatform platform uuid).head? =
      some '/' := by
    simp [AgentBasedJavaProcessBuilder.createTempDirPathByPlatform,
      AgentBasedJavaProcessBuilder.getShabdizHomePathByPlatform, habsolute]
  rw [resolved, if_neg, if_pos hhead]
  rintro (hnil | hdot)
  · rw [hnil] at hlast
    cases hlast
  · rw [hdot, hsep] at hlast
    exact absurd hlast (by decide)

theorem isLiteral_getBootstrapHomePathByPlatform (hsep : platform.separator = '/')
    (htemp : IsLiteral platform.tempDirectory) :
    IsLiteral (AgentBasedJavaProcessBuilder.getBootstrapHomePathByPlatform platform) := by
  simp only [AgentBasedJavaProcessBuilder.getBootstrapHomePathByPlatform,
    AgentBasedJavaProcessBuilder.getShabdizHomePathByPlatform, List.append_assoc, hsep]
  exact isLiteral_append htemp (by decide)

theorem isLiteral_getBootstrapJarPathByPlatform (hsep : platform.separator = '/')
    (htemp : IsLiteral platform.tempDirectory) :
    IsLiteral (AgentBasedJavaProcessBuilder.getBootstrapJarPathByPlatform platform) :=
  isLiteral_append (isLiteral_getBootstrapHomePathByPlatform hsep htemp) (by decide)

theorem isLiteral_createTempDirPathByPlatform (hsep : platform.separator = '/')
    (htemp : IsLiteral platform.tempDirectory) (huuid : ∀ c ∈ uuid, isUuidChar c = true) :
    IsLiteral (AgentBasedJavaProcessBuilder.createTempDirPathByPlatform platform uuid) := by
  have hend : IsLiteral (uuid ++ ['/']) :=
    isLiteral_append (isLiteral_of_isUuidChar huuid) (by decide)
  have hbegin : IsLiteral ("shabdiz/tmp/".toList ++ (uuid ++ ['/'])) :=
    isLiteral_append (by decide) hend
  have hpath : AgentBasedJavaProcessBuilder.createTempDirPathByPlatform platform uuid =
      platform.tempDirectory ++ ("shabdiz/tmp/".toList ++ (uuid ++ ['/'])) := by
    simp [AgentBasedJavaProcessBuilder.createTempDirPathByPlatform,
      AgentBasedJavaProcessBuilder.getShabdizHomePathByPlatform, hsep]
  rw [hpath]
  exact isLiteral_append htemp hbegin

theorem notMem_createTempDirPathByPlatform (hsep : platform.separator = '/')
    (htemp : ':' ∉ platform.tempDirectory) (huuid : ∀ c ∈ uuid, isUuidChar c = true) :
    ':' ∉ AgentBasedJavaProcessBuilder.createTempDirPathByPlatform platform uuid := by
  have hmem : ':' ∉ uuid := fun h => ne_colon_of_isUuidChar (huuid _ h) rfl
  simp [AgentBasedJavaProcessBuilder.createTempDirPathByPlatform,
    AgentBasedJavaProcessBuilder.getShabdizHomePathByPlatform, hsep, htemp, hmem]

end Paths

/-! ### The class path -/

section ClassPath

variable {b : AgentBasedJavaProcessBuilder} {platform : Platform} {tmp command : List Char}

/-- The entries of the class path that is appended. -/
def classPathParts (b : AgentBasedJavaProcessBuilder) (tmp : List Char) : List (List Char) :=
  if b.workingDirectory.isSome then [['.'], tmp, tmp ++ ['*']] else [['.'], ['*']]

theorem appendClassPath_eq :
    b.appendClassPath command platform tmp = command ++ ("-cp ".toList ++
      doubleQuoted ([platform.pathSeparator].intercalate (classPathParts b tmp)) ++ [' ']) := by
  cases hdirectory : b.workingDirectory <;>
    simp [AgentBasedJavaProcessBuilder.appendClassPath, classPathParts, hdirectory,
      doubleQuoted, List.intercalate]

theorem classPathEntries_eq (hpath : platform.pathSeparator = ':') (htmp : ':' ∉ tmp) :
    classPathEntries platform ([platform.pathSeparator].intercalate (classPathParts b tmp)) =
      classPathParts b tmp := by
  rw [classPathEntries, hpath]
  refine List.splitOn_intercalate ':' (fun part hpart => ?_) ?_
  · simp only [classPathParts] at hpart
    split at hpart
    · simp only [List.mem_cons, List.not_mem_nil, or_false] at hpart
      rcases hpart with rfl | rfl | rfl
      · decide
      · exact htmp
      · simp [htmp]
    · simp only [List.mem_cons, List.not_mem_nil, or_false] at hpart
      rcases hpart with rfl | rfl <;> decide
  · simp only [classPathParts]
    split <;> simp

theorem isLiteral_classPath (hpath : platform.pathSeparator = ':') (htmp : IsLiteral tmp) :
    IsLiteral ([platform.pathSeparator].intercalate (classPathParts b tmp)) := by
  rw [classPathParts, hpath]
  split
  · have hlast : IsLiteral (tmp ++ ['*']) := isLiteral_append htmp (by decide)
    have hnext : IsLiteral (':' :: (tmp ++ ['*'])) := 
      @isLiteral_append _ [':'] _ (by decide) hlast
    have hboth : IsLiteral (tmp ++ (':' :: (tmp ++ ['*']))) := isLiteral_append htmp hnext
    have hall : IsLiteral (['.', ':'] ++ (tmp ++ (':' :: (tmp ++ ['*'])))) :=
      isLiteral_append (by decide) hboth
    simpa [List.intercalate] using hall
  · decide

end ClassPath

/-! ### Starting the process -/

section Start

open AgentBasedJavaProcessBuilder

variable {b : AgentBasedJavaProcessBuilder} {base : JavaProcessBuilder} {platform : Platform}
  {uuid mainClass tmp jar : List Char} {jvmArguments parameters : List (List Char)}
  {existsOnHost : Bool} {agent : List UInt8} {host : HostFiles}

/-- What comes before the main class. -/
def commandBeginning (b : AgentBasedJavaProcessBuilder) (platform : Platform)
    (tmp jar : List Char) : List Char :=
  b.appendClassPath (b.appendJVMArguments (appendBootstrpAgent platform
    (JavaProcessBuilder.appendJavaBinPath [] platform) jar)) platform tmp

theorem passes_commandBeginning (hcygwin : platform.isCygwinPlatform = false)
    (hpath : platform.pathSeparator = ':') (hb : b.toJavaProcessBuilder =
      base.setJVMArguments jvmArguments) (hjvm : ∀ w ∈ jvmArguments, IsBare w)
    (hjar : IsLiteral jar) (htmp : IsLiteral tmp) :
    Passes (commandBeginning b platform tmp jar)
      (["java".toList, "-javaagent:".toList ++ jar] ++ jvmArguments ++
        ["-cp".toList, [platform.pathSeparator].intercalate (classPathParts b tmp)]) := by
  have hagent : Passes (appendBootstrpAgent platform
      (JavaProcessBuilder.appendJavaBinPath [] platform) jar)
      (["java".toList] ++ ["-javaagent:".toList ++ jar]) := by
    have htext : appendBootstrpAgent platform
        (JavaProcessBuilder.appendJavaBinPath [] platform) jar =
        "java ".toList ++ ("-javaagent:".toList ++ doubleQuoted jar ++ [' ']) := by
      simp [appendBootstrpAgent, JavaProcessBuilder.appendJavaBinPath,
        SimplePlatform.getJavaHomeDirectory, hcygwin, append_quote]
    rw [htext]
    exact passes_append rfl (passes_prefixed (by decide) hjar)
  have hclassPath : Passes ("-cp ".toList ++
      doubleQuoted ([platform.pathSeparator].intercalate (classPathParts b tmp)) ++ [' '])
      (["-cp".toList] ++ [[platform.pathSeparator].intercalate (classPathParts b tmp)]) := by
    rw [List.append_assoc]
    exact passes_append rfl (passes_doubleQuoted (isLiteral_classPath hpath htmp))
  rw [commandBeginning, appendClassPath_eq]
  exact passes_append (passes_appendJVMArguments hb hjvm hagent) hclassPath

theorem notMem_commandBeginning (hpath : platform.pathSeparator = ':')
    (hjvm : ∀ w ∈ jvmArguments, IsBare w) (hjar : IsLiteral jar) (htmp : IsLiteral tmp) :
    '"' ∉ (["java".toList, "-javaagent:".toList ++ jar] ++ jvmArguments ++
      ["-cp".toList, [platform.pathSeparator].intercalate (classPathParts b tmp)]).flatten := by
  have hwords : '"' ∉ jvmArguments.flatten := fun h => by
    obtain ⟨w, hw, hmem⟩ := List.mem_flatten.mp h
    exact notMem_of_isBare (hjvm w hw) hmem
  have hclassPath := notMem_of_isLiteralFrom (@isLiteral_classPath b _ _ hpath htmp)
  simp [hwords, hclassPath, notMem_of_isLiteralFrom hjar]

theorem assembleCommand_eq (hmain : b.mainClass = some mainClass) :
    b.assembleCommand tmp platform jar (parameters.map some) =
      .ok (JavaProcessBuilder.appendCommandLineArguments
        (commandBeginning b platform tmp jar ++ mainClass ++ [' ']) platform.toSimplePlatform
        (some (parameters.map some))) := by
  rw [assembleCommand, appendMainClass, hmain]
  rfl

/-- The calls of `start`, which come before the command for `java`. -/
def startCalls (b : AgentBasedJavaProcessBuilder) (platform : Platform) (uuid : List Char)
    (existsOnHost : Bool) (agent : List UInt8) : List HostCall :=
  .execute ("mkdir -p ".toList ++ spaced [getBootstrapHomePathByPlatform platform,
      createTempDirPathByPlatform platform uuid]) ::
    (b.uploadBootstrapJar platform existsOnHost agent ++
      b.uploadLocalClasspathFiles (createTempDirPathByPlatform platform uuid) ++
      b.uploadBootstrapConfigurationFile (createTempDirPathByPlatform platform uuid))

theorem start_eq (hunix : Platforms.isUnixBased platform.toSimplePlatform = true)
    (hmain : b.mainClass = some mainClass) :
    b.start platform uuid existsOnHost agent (parameters.map some) =
      (startCalls b platform uuid existsOnHost agent,
        .ok (.executeAt (b.workingDirectory.getD (createTempDirPathByPlatform platform uuid))
          (JavaProcessBuilder.appendCommandLineArguments
            (commandBeginning b platform (createTempDirPathByPlatform platform uuid)
              (getBootstrapJarPathByPlatform platform) ++ mainClass ++ [' '])
            platform.toSimplePlatform (some (parameters.map some))))) := by
  have hshell : Commands.usesShell platform.toSimplePlatform = true := by
    simp [Commands.usesShell, hunix]
  have hmkdir := @makeDirectories_eq _ (getBootstrapHomePathByPlatform platform)
    [createTempDirPathByPlatform platform uuid] hshell
  simp only [List.map_cons, List.map_nil] at hmkdir
  rw [start, hmkdir, assembleCommand_eq hmain]
  rfl

/-! ### What the calls put on the host -/

/-- The file of the agent is put on the host unless the host has it. -/
theorem files_uploadBootstrapJar :
    (host.after platform (b.uploadBootstrapJar platform existsOnHost agent)).files =
      if b.alwaysUploadBootstrap || !existsOnHost then
        HostFiles.put (getBootstrapHomePathByPlatform platform) host.files
          ⟨"bootstrap.jar".toList, agent⟩
      else host.files := by
  have hupload (other : HostFiles) : (other.upload platform ⟨"bootstrap.jar".toList, agent⟩
      (getBootstrapHomePathByPlatform platform)).files =
      HostFiles.put (getBootstrapHomePathByPlatform platform) other.files
        ⟨"bootstrap.jar".toList, agent⟩ := by
    rw [HostFiles.upload, if_pos (by simp [getLast?_getBootstrapHomePathByPlatform]),
      SimplePlatform.addTailingSeparator, if_pos getLast?_getBootstrapHomePathByPlatform]
  rw [uploadBootstrapJar]
  cases b.alwaysUploadBootstrap with
  | true => exact hupload host
  | false =>
    cases existsOnHost with
    | true => rfl
    | false => exact hupload host

/-- The files that were added and the configuration are put into the directory of the process. -/
theorem files_uploads :
    (host.after platform
      (b.uploadLocalClasspathFiles (createTempDirPathByPlatform platform uuid) ++
        b.uploadBootstrapConfigurationFile (createTempDirPathByPlatform platform uuid))).files =
      b.placedFiles.foldl (HostFiles.put (createTempDirPathByPlatform platform uuid))
        host.files := by
  have hpath : SimplePlatform.addTailingSeparator platform.separator
      (createTempDirPathByPlatform platform uuid) = createTempDirPathByPlatform platform uuid :=
    if_pos getLast?_createTempDirPathByPlatform
  have hconfiguration (other : HostFiles) :
      (other.after platform
        (b.uploadBootstrapConfigurationFile (createTempDirPathByPlatform platform uuid))).files =
      HostFiles.put (createTempDirPathByPlatform platform uuid) other.files
        b.configurationFile := by
    show (other.upload platform b.configurationFile _).files = _
    rw [HostFiles.upload, if_pos (by simp [getLast?_createTempDirPathByPlatform]), hpath]
  have hall : (host.after platform
      (b.uploadLocalClasspathFiles (createTempDirPathByPlatform platform uuid))).files =
      b.uploads.foldl (HostFiles.put (createTempDirPathByPlatform platform uuid)) host.files := by
    rw [uploadLocalClasspathFiles]
    split
    · next hempty =>
      rw [List.isEmpty_iff.mp hempty]
      rfl
    · show b.uploads.foldl (HostFiles.put (SimplePlatform.addTailingSeparator _ _)) host.files = _
      rw [hpath]
  rw [HostFiles.after, List.foldl_append, placedFiles, List.foldl_concat, ← hall]
  exact hconfiguration _

/-- **What the calls put on the host.** -/
theorem files_startCalls :
    (host.after platform (startCalls b platform uuid existsOnHost agent)).files =
      b.placedFiles.foldl (HostFiles.put (createTempDirPathByPlatform platform uuid))
        (if b.alwaysUploadBootstrap || !existsOnHost then
          HostFiles.put (getBootstrapHomePathByPlatform platform) host.files
            ⟨"bootstrap.jar".toList, agent⟩
        else host.files) := by
  rw [← files_uploadBootstrapJar, ← files_uploads, startCalls, HostFiles.after, List.foldl_cons,
    List.append_assoc, List.foldl_append]
  rfl

theorem files_startCalls_of_ne {path : List Char}
    (h : ∀ name, path ≠ createTempDirPathByPlatform platform uuid ++ name) :
    (host.after platform (startCalls b platform uuid existsOnHost agent)).files path =
      (if b.alwaysUploadBootstrap || !existsOnHost then
        HostFiles.put (getBootstrapHomePathByPlatform platform) host.files
          ⟨"bootstrap.jar".toList, agent⟩
      else host.files) path := by
  rw [files_startCalls]
  exact put_all_of_ne fun file _ => h file.name

/-- The directories are made. -/
theorem tokenise_makeDirectories (hsep : platform.separator = '/')
    (htemp : IsLiteral platform.tempDirectory) (huuid : ∀ c ∈ uuid, isUuidChar c = true) :
    tokenise ("mkdir -p ".toList ++ spaced [getBootstrapHomePathByPlatform platform,
        createTempDirPathByPlatform platform uuid]) =
      some ["mkdir".toList, "-p".toList, getBootstrapHomePathByPlatform platform,
        createTempDirPathByPlatform platform uuid] := by
  have hhome := isLiteral_getBootstrapHomePathByPlatform hsep htemp
  have htmp := isLiteral_createTempDirPathByPlatform hsep htemp huuid
  have hwords : tokenise ("mkdir -p ".toList ++ spaced [getBootstrapHomePathByPlatform platform,
      createTempDirPathByPlatform platform uuid]) =
      some (["mkdir".toList, "-p".toList] ++ [getBootstrapHomePathByPlatform platform,
        createTempDirPathByPlatform platform uuid]) := by
    refine (tokenise_command_iff rfl (by decide)).mpr ?_
    simpa using ⟨hhome, htmp⟩
  exact hwords

/-- Every file is put into one of the directories. -/
theorem uploaded_startCalls (path : List Char)
    (h : (host.after platform (startCalls b platform uuid existsOnHost agent)).files path ≠
      host.files path) :
    ∃ name, path = getBootstrapHomePathByPlatform platform ++ name ∨
      path = createTempDirPathByPlatform platform uuid ++ name := by
  by_contra hnot
  push Not at hnot
  refine h ?_
  rw [files_startCalls_of_ne fun name => (hnot name).2]
  split
  · exact put_of_ne (hnot _).1
  · rfl

/-- The file of the agent is put on the host, or the host has one. -/
theorem agent_startCalls :
    (host.after platform (startCalls b platform uuid existsOnHost agent)).files
        (getBootstrapJarPathByPlatform platform) = some agent ∨
      existsOnHost = true ∧
        .execute (existsCommand platform (getBootstrapJarPathByPlatform platform)) ∈
          startCalls b platform uuid existsOnHost agent ∧
        (host.after platform (startCalls b platform uuid existsOnHost agent)).files
          (getBootstrapJarPathByPlatform platform) =
          host.files (getBootstrapJarPathByPlatform platform) := by
  have hne (name : List Char) : getBootstrapJarPathByPlatform platform ≠
      createTempDirPathByPlatform platform uuid ++ name :=
    getBootstrapHomePathByPlatform_append_ne
  rw [files_startCalls_of_ne hne]
  cases halways : b.alwaysUploadBootstrap || !existsOnHost with
  | true => exact .inl put_self
  | false =>
    obtain ⟨hnever, hexists⟩ := Bool.or_eq_false_iff.mp halways
    obtain rfl : existsOnHost = true := by simpa using hexists
    have hask : .execute (existsCommand platform (getBootstrapJarPathByPlatform platform)) ∈
        b.uploadBootstrapJar platform true agent := by
      rw [uploadBootstrapJar, hnever]
      exact List.mem_cons_self ..
    exact .inr ⟨rfl, List.mem_cons_of_mem _
      (List.mem_append_left _ (List.mem_append_left _ hask)), rfl⟩

/-- The configuration is on the class path. -/
theorem configuration_startCalls (hsep : platform.separator = '/')
    (habsolute : platform.tempDirectory.head? = some '/') :
    ∃ entry ∈ classPathParts b (createTempDirPathByPlatform platform uuid),
      (host.after platform (startCalls b platform uuid existsOnHost agent)).files
        (resolved (b.workingDirectory.getD (createTempDirPathByPlatform platform uuid)) entry ++
          "bootstrap.config".toList) = some b.configuration := by
  rw [files_startCalls]
  cases hdirectory : b.workingDirectory with
  | none => exact ⟨['.'], by simp [classPathParts, hdirectory], put_all_concat⟩
  | some directory =>
    refine ⟨createTempDirPathByPlatform platform uuid, by simp [classPathParts, hdirectory], ?_⟩
    rw [resolved_createTempDirPathByPlatform hsep habsolute]
    exact put_all_concat

/-- Which directory of the class path has its files on it. -/
theorem resolved_of_mem_classPathParts {directory : List Char} (hsep : platform.separator = '/')
    (habsolute : platform.tempDirectory.head? = some '/')
    (h : directory ++ ['*'] ∈ classPathParts b (createTempDirPathByPlatform platform uuid)) :
    resolved (b.workingDirectory.getD (createTempDirPathByPlatform platform uuid)) directory =
      createTempDirPathByPlatform platform uuid := by
  rw [classPathParts] at h
  cases hdirectory : b.workingDirectory with
  | none =>
    rw [hdirectory, if_neg (by simp)] at h
    obtain h | h : directory ++ ['*'] = ['.'] ∨ directory ++ ['*'] = ['*'] := by simpa using h
    · exact absurd (congrArg List.getLast? h) (by simp)
    · obtain rfl : directory = [] := by simpa using h
      rfl
  | some wd =>
    rw [hdirectory, if_pos Option.isSome_some] at h
    simp only [List.mem_cons, List.not_mem_nil, or_false] at h
    rcases h with h | h | h
    · exact absurd (congrArg List.getLast? h) (by simp)
    · have hlast := congrArg List.getLast? h
      rw [getLast?_createTempDirPathByPlatform, hsep, List.getLast?_concat] at hlast
      exact absurd hlast (by decide)
    · rw [List.append_cancel_right h]
      exact resolved_createTempDirPathByPlatform hsep habsolute

/-- **When the files that were added are on the class path.** -/
theorem files_startCalls_iff (hsep : platform.separator = '/')
    (habsolute : platform.tempDirectory.head? = some '/') :
    (∃ directory,
      directory ++ ['*'] ∈ classPathParts b (createTempDirPathByPlatform platform uuid) ∧
      ∀ file ∈ b.uploads,
        (host.after platform (startCalls b platform uuid existsOnHost agent)).files
          (resolved (b.workingDirectory.getD (createTempDirPathByPlatform platform uuid))
            directory ++ file.name) = some file.content) ↔
      b.UploadsAgree := by
  rw [UploadsAgree, ← @put_all_iff (createTempDirPathByPlatform platform uuid),
    ← @files_startCalls b platform uuid existsOnHost agent host]
  constructor
  · rintro ⟨directory, hmem, hfiles⟩ file hfile
    rw [resolved_of_mem_classPathParts hsep habsolute hmem] at hfiles
    obtain hfile | hfile := List.mem_append.mp hfile
    · exact hfiles file hfile
    · -- The configuration comes last.
      rw [List.mem_singleton.mp hfile, files_startCalls]
      exact put_all_concat
  · intro h
    have hmem : ∃ directory, directory ++ ['*'] ∈
        classPathParts b (createTempDirPathByPlatform platform uuid) := by
      cases hdirectory : b.workingDirectory with
      | none => exact ⟨[], by simp [classPathParts, hdirectory]⟩
      | some wd =>
        exact ⟨createTempDirPathByPlatform platform uuid, by simp [classPathParts, hdirectory]⟩
    obtain ⟨directory, hmem⟩ := hmem
    refine ⟨directory, hmem, fun file hfile => ?_⟩
    rw [resolved_of_mem_classPathParts hsep habsolute hmem]
    exact h file (List.mem_append_left _ hfile)

/-- The directories are made, and the files are put where the process looks for them. -/
theorem prepares_startCalls (hsep : platform.separator = '/')
    (hpath : platform.pathSeparator = ':') (htemp : IsLiteral platform.tempDirectory)
    (habsolute : platform.tempDirectory.head? = some '/')
    (hcolon : ':' ∉ platform.tempDirectory) (huuid : ∀ c ∈ uuid, isUuidChar c = true)
    (hagree : b.UploadsAgree) :
    Prepares b platform existsOnHost agent host (startCalls b platform uuid existsOnHost agent)
      (getBootstrapHomePathByPlatform platform) (createTempDirPathByPlatform platform uuid)
      (getBootstrapJarPathByPlatform platform)
      (b.workingDirectory.getD (createTempDirPathByPlatform platform uuid))
      ([platform.pathSeparator].intercalate
        (classPathParts b (createTempDirPathByPlatform platform uuid))) := by
  have hentries := @classPathEntries_eq b _ _ hpath
    (notMem_createTempDirPathByPlatform hsep hcolon huuid)
  refine ⟨⟨_, rfl, tokenise_makeDirectories hsep htemp huuid⟩, uploaded_startCalls,
    agent_startCalls, ?_, ?_⟩
  · rw [hentries]
    exact configuration_startCalls hsep habsolute
  · rw [hentries]
    exact (files_startCalls_iff hsep habsolute).mpr hagree

/-- **When the process is started as intended.** On a Unix-based platform, with bare arguments of
the virtual machine, an absolute and literal temporary directory that can be on a class path, and a
literal working directory if one is set, it is so exactly if the main class is not nested, each
argument of the program means itself in double quotes, and no file that is uploaded takes the place
of a different one. -/
theorem startsJava_iff (hunix : Platforms.isUnixBased platform.toSimplePlatform = true)
    (hcygwin : platform.isCygwinPlatform = false) (htemp : IsLiteral platform.tempDirectory)
    (habsolute : platform.tempDirectory.head? = some '/')
    (hcolon : ':' ∉ platform.tempDirectory) (huuid : ∀ c ∈ uuid, isUuidChar c = true)
    (hdirectory : ∀ directory ∈ b.workingDirectory, IsLiteral directory)
    (hb : b.toJavaProcessBuilder = base.setJVMArguments jvmArguments)
    (hjvm : ∀ w ∈ jvmArguments, IsBare w) (hmain : b.mainClass = some mainClass)
    (hclass : IsClassName mainClass) :
    StartsJava b platform uuid existsOnHost agent host jvmArguments mainClass parameters ↔
      '$' ∉ mainClass ∧ (∀ parameter ∈ parameters, IsLiteral parameter) ∧ b.UploadsAgree := by
  have hsep : platform.separator = '/' := by
    simp only [Platforms.isUnixBased, Bool.and_eq_true, decide_eq_true_eq] at hunix
    exact hunix.2
  have hpath : platform.pathSeparator = ':' := by
    simp only [Platforms.isUnixBased, Bool.and_eq_true, decide_eq_true_eq] at hunix
    exact hunix.1
  have hshell : Commands.usesShell platform.toSimplePlatform = true := by
    simp [Commands.usesShell, hunix]
  have hjar := isLiteral_getBootstrapJarPathByPlatform hsep htemp
  have htmp := isLiteral_createTempDirPathByPlatform hsep htemp huuid
  have hpasses := passes_commandBeginning hcygwin hpath hb hjvm hjar htmp
  have hquote := notMem_commandBeginning (b := b) hpath hjvm hjar htmp
  have hiff := @tokenise_appendCommandLineArguments_iff platform.toSimplePlatform _ _ _ parameters
    hpasses hquote hclass
  have hagree := @files_startCalls_iff b platform uuid existsOnHost agent host hsep habsolute
  have hentries := @classPathEntries_eq b _ _ hpath
    (notMem_createTempDirPathByPlatform hsep hcolon huuid)
  rw [← and_assoc]
  constructor
  · rintro ⟨calls, directory, command, home, tmp, jar, classPath, hstart, hfiles, hruns⟩
    rw [start_eq hunix hmain, Prod.mk.injEq, Except.ok.injEq, HostCall.executeAt.injEq] at hstart
    obtain ⟨rfl, rfl, rfl⟩ := hstart
    obtain ⟨text, htext, hread⟩ := hruns.locally
    obtain rfl := congrArg Prod.fst (Option.some.inj htext)
    -- The words before the main class are the same, since as many of them are read.
    have hread' := hread
    rw [appendCommandLineArguments_eq, List.append_assoc, List.append_assoc,
      tokenise_passes_append hpasses] at hread'
    obtain ⟨out, hout, hwords⟩ := Option.map_eq_some_iff.mp hread'
    have hsplit : javaWords jar jvmArguments classPath mainClass parameters =
        (["java".toList, "-javaagent:".toList ++ jar] ++ jvmArguments ++
          ["-cp".toList, classPath]) ++ mainClass :: parameters := by
      simp [javaWords]
    rw [hsplit] at hwords hread
    obtain ⟨hbefore, hafter⟩ := List.append_inj hwords (by simp)
    obtain rfl := (List.cons.inj (List.cons.inj (List.append_inj' hbefore rfl).2).2).1
    rw [← hbefore] at hread
    refine ⟨hiff.mp hread, hagree.mp ?_⟩
    rw [← hentries]
    exact hfiles.files
  · rintro ⟨hwords, hfiles⟩
    have hwd : IsLiteral
        (b.workingDirectory.getD (createTempDirPathByPlatform platform uuid)) := by
      cases hsome : b.workingDirectory with
      | none => exact htmp
      | some directory => exact hdirectory directory hsome
    refine ⟨_, _, _, _, _, _, _, start_eq hunix hmain,
      prepares_startCalls hsep hpath htemp habsolute hcolon huuid hfiles,
      (runsProgram_iff hshell hwd (by simp [javaWords])).mpr ?_⟩
    rw [hiff.mpr hwords]
    simp [javaWords]

/-- A process on a host of which nothing is known, with an argument that has a blank and an archive
whose name no other has. -/
theorem startsJava_iff_unix :
    StartsJava ⟨JavaProcessBuilder.setJVMArguments ⟨[], some "a.Main".toList, none⟩
        ["-Xmx64m".toList], [⟨"app.jar".toList, [80, 75]⟩], false, [35]⟩
      (SimplePlatform.withTempDirectory ⟨':', '/', false⟩ "/tmp".toList) "1f-0".toList false
      [80] ⟨fun _ => false, fun _ => none⟩ ["-Xmx64m".toList] "a.Main".toList ["x y".toList] ↔
    '$' ∉ "a.Main".toList ∧ (∀ parameter ∈ ["x y".toList], IsLiteral parameter) ∧
      AgentBasedJavaProcessBuilder.UploadsAgree
        ⟨JavaProcessBuilder.setJVMArguments ⟨[], some "a.Main".toList, none⟩
          ["-Xmx64m".toList], [⟨"app.jar".toList, [80, 75]⟩], false, [35]⟩ :=
  startsJava_iff rfl rfl (by decide) rfl (by decide) (List.all_eq_true.mp (by decide))
    (by rintro directory ⟨⟩) rfl (by decide) rfl (by decide)

end Start

end Shabdiz
