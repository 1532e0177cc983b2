import Mathlib.Data.List.Infix
import Shabdiz.Text.Lines
import Shabdiz.Util.Duration

/-!
# Reading the results of experiments

An experiment leaves CSV files with a time and a value in each row. `AnalyticsUtil` reads them with
cell processors: the time is taken relative to the first time that was ever read, and the value is
parsed and scaled. Two things are shared by everything that reads such files in one JVM: the array
`DEFAULT_GAUGE_CSV_PROCESSORS`, and the first time, which the one processor of times remembers.

Files and libraries are parameters. A library function that throws is one that returns an error.

## Main definitions

* `CellProcessor`, `Statics`, `Analysis` — processors, what is shared, and computations with it
* `getAggregatedCstStatistic` — the samples in a column of some files
* `getLabel`, `decorateManagerAsApplicationName` and others — labels of a directory of results
* `Analysis.Steady`, `Analysis.Keeps` — computations that the first time does not influence, and
  computations that leave the array of processors as it is

## Main results

* `steady_getAggregatedCstStatistic`, `keeps_getAggregatedCstStatistic` — reading a column of values
-/

namespace Shabdiz

/-! ### Files and libraries -/

/-- The exceptions that an analysis ends with. -/
inductive AnalysisError where
  | superCsv
  | numberFormat
  | nullPointer
  | illegalState
  | illegalArgument
  | indexOutOfBounds
  | io
deriving DecidableEq

/-- A cell of a CSV file; an empty one is `null`. -/
abbrev Cell := Option (List Char)

/-- `Number`, for the type `D` of `double`. -/
inductive Number (D : Type) where
  | double (d : D)
  | integer (i : ℤ)
  | long (l : Int64)
deriving DecidableEq

/-- What is called of libraries: parsing cells and numbers, statistics of samples, and properties
of characters. -/
structure AnalysisLibrary (D : Type) where
  parseLong : Cell → Except AnalysisError Int64
  parseDouble : Cell → Except AnalysisError D
  parseInt : List Char → Except AnalysisError ℤ
  mean : List (Number D) → D
  confidenceInterval95Percent : List (Number D) → D
  isWhitespace : Char → Bool
  toTitleCase : Char → Char

/-- The files with the results. `listFiles` is `null` for what is not a directory, `filesBelow` is
all files under a directory, `rows` are what is read of a CSV file after its header, and
`properties` those in a file of properties. -/
structure ResultFiles (F : Type) where
  name : F → List Char
  isDirectory : F → Bool
  listFiles : F → Option (List F)
  filesBelow : F → List F
  rows : F → List (Except AnalysisError (List Cell))
  properties : F → Except AnalysisError (List Char → Option (List Char))

/-! ### Cell processors -/

/-- The classes of analysers of resource consumption. -/
inductive ResourceConsumption where
  | perApplication
  | perDeploymentStrategy
  | perNetworkSize
  | perScannerInterval
  | perThreadPoolSize
deriving DecidableEq

/-- The cell processors. Each class of analysers declares an integer processor of its own. -/
inductive CellProcessor where
  | relativeTimeInSeconds
  | double
  | parseCpuUsagePercent
  | convertByteToMegabyte
  | convertBytesToKiloBytes
  | integer (declaredBy : ResourceConsumption)
deriving DecidableEq

/-- What the analysers in a JVM share: the array of default processors, and the time that
`RELATIVE_TIME_IN_SECONDS_PROCESSOR` read first. -/
structure Statics where
  defaultGaugeCsvProcessors : List CellProcessor
  firstTime : Option Int64
deriving DecidableEq

/-- The processors of a gauge file: the time from the first row on, and the value. -/
def defaultGaugeCsvProcessors : List CellProcessor := [.relativeTimeInSeconds, .double]

/-- The statics when the JVM has just been started. -/
def Statics.fresh : Statics := ⟨Shabdiz.defaultGaugeCsvProcessors, none⟩

/-- A computation in such a JVM, which may throw. -/
abbrev Analysis := ExceptT AnalysisError (StateM Statics)

/-- A step that reads and changes no analyser state. -/
def Analysis.ofExcept {α : Type} (x : Except AnalysisError α) : Analysis α := ExceptT.mk (pure x)

theorem Analysis.ofExcept_ok {α : Type} (a : α) : Analysis.ofExcept (.ok a) = pure a := rfl

section Reading

variable {F D : Type} [Mul D] [Div D] [NatCast D]

/-- `execute`. -/
def CellProcessor.execute (lib : AnalysisLibrary D) : CellProcessor → Cell → Analysis (Number D)
  | .relativeTimeInSeconds, value => do
    let length ← .ofExcept (lib.parseLong value)
    let time := TimeUnit.seconds.convert length .nanoseconds
    let statics ← get
    let first := statics.firstTime.getD time
    set { statics with firstTime := some first }
    pure (.long (time - first))
  | .double, value => do
    let value ← .ofExcept (lib.parseDouble value)
    pure (.double value)
  | .parseCpuUsagePercent, value => do
    let usage ← .ofExcept (lib.parseDouble value)
    pure (.double (usage * (100 : ℕ)))
  | .convertByteToMegabyte, value => do
    let usageBytes ← .ofExcept (lib.parseDouble value)
    pure (.double (usageBytes / (1000 * 1000 : ℕ)))
  | .convertBytesToKiloBytes, value => do
    let bytes ← .ofExcept (lib.parseDouble value)
    pure (.double (bytes / (1000 : ℕ)))
  | .integer _, none => throw .nullPointer
  | .integer _, some value => do
    let value ← .ofExcept (lib.parseInt value)
    pure (.integer value)

/-- What `CsvListReader.read` makes of a row: there must be as many processors as cells. -/
def executeCellProcessors (lib : AnalysisLibrary D) (row : List Cell)
    (processors : List CellProcessor) : Analysis (List (Number D)) :=
  if row.length ≠ processors.length then throw .superCsv
  else (processors.zip row).mapM fun (processor, value) => processor.execute lib value

/-- The sample in a row. -/
def readSample (lib : AnalysisLibrary D) (processors : List CellProcessor) (columnIndex : ℕ)
    (row : Except AnalysisError (List Cell)) : Analysis (Number D) := do
  let row ← .ofExcept row
  let values ← executeCellProcessors lib row processors
  match values[columnIndex]? with
  | some sample => pure sample
  | none => throw .indexOutOfBounds

/-- The samples of all files, in order. -/
def getAggregatedCstStatistic (lib : AnalysisLibrary D) (files : ResultFiles F) (csvFiles : List F)
    (processors : List CellProcessor) (columnIndex : ℕ) : Analysis (List (Number D)) := do
  let samples ← csvFiles.mapM fun csv =>
    (files.rows csv).mapM (readSample lib processors columnIndex)
  pure samples.flatten

/-! ### Directories and labels -/

/-- The directories in a directory, but for those with an excluded name; `none` if it cannot be
listed. -/
def listSubDirectoriesExcluding (files : ResultFiles F) (resultsPath : F)
    (excludes : List (List Char)) : Option (List F) :=
  (files.listFiles resultsPath).map fun found =>
    found.filter fun file => files.isDirectory file && !excludes.contains (files.name file)

/-- The files of this name anywhere below a path. -/
def getFilesByName (files : ResultFiles F) (searchPath : F) (name : List Char) :
    List F :=
  (files.filesBelow searchPath).filter fun file => files.name file = name

/-- The properties of every experiment below a path. -/
def getAllExperimentPropertiesInPath (files : ResultFiles F) (searchPath : F) :
    Except AnalysisError (List (List Char → Option (List Char))) :=
  (getFilesByName files searchPath "experiment.properties".toList).mapM files.properties

/-- The value of a property, which must be the same in all properties of a directory. `none` is
`null`. -/
def getLabel (files : ResultFiles F) (file : F) (propertyKey : List Char) :
    Except AnalysisError (Option (List Char)) := do
  let allProperties ← getAllExperimentPropertiesInPath files file
  allProperties.foldlM (fun cached properties =>
    match cached with
    | none => pure (properties propertyKey)
    | some value =>
      if properties propertyKey = some value then pure cached else throw .illegalState) none

/-- `replaceAll("\\..*", "")`: what follows a dot in its line is left out, and the dot too. -/
def withoutSuffixes (inSuffix : Bool) : List Char → List Char
  | [] => []
  | c :: cs =>
    if isLineSeparator c then c :: withoutSuffixes false cs
    else if inSuffix || c = '.' then withoutSuffixes true cs
    else c :: withoutSuffixes false cs

/-- `WordUtils.capitalize`. -/
def capitalize (lib : AnalysisLibrary D) (capitalizeNext : Bool) : List Char → List Char
  | [] => []
  | c :: cs =>
    if lib.isWhitespace c then c :: capitalize lib true cs
    else (if capitalizeNext then lib.toTitleCase c else c) :: capitalize lib false cs

/-- The application that a manager stands for in a chart. -/
def decorateManagerAsApplicationName (lib : AnalysisLibrary D) :
    Option (List Char) → Except AnalysisError (List Char)
  | none => throw .nullPointer
  | some manager =>
    let tidyManagerName := withoutSuffixes false (manager.map fun c => if c = '_' then ' ' else c)
    if "Chord".toList <:+: tidyManagerName then pure "Chord".toList
    else if "Echo".toList <:+: manager then pure "Echo".toList
    else pure (capitalize lib true tidyManagerName)

/-- With a blank before an upper-case letter that begins a word, and after a word. -/
def splitCamelCase : List Char → List Char
  | c :: d :: cs =>
    if (c.isUpper && d.isUpper && cs.head?.any Char.isLower) || (!c.isUpper && d.isUpper) ||
        (c.isAlpha && !d.isAlpha) then
      c :: ' ' :: splitCamelCase (d :: cs)
    else c :: splitCamelCase (d :: cs)
  | cs => cs

/-- The deployment strategy that a manager stands for in a chart: what follows its first dot. -/
def decorateManagerAsDeploymentStrategy : Option (List Char) → Except AnalysisError (List Char)
  | none => throw .nullPointer
  | some manager =>
    pure (splitCamelCase (if '.' ∈ manager then (manager.dropWhile (· ≠ '.')).tail else manager))

/-- A thread pool size for a chart; the greatest `int` is written as a word. -/
def decoratePoolSize (lib : AnalysisLibrary D) :
    Option (List Char) → Except AnalysisError (List Char)
  | none => throw .numberFormat
  | some poolSize => do
    let size ← lib.parseInt poolSize
    pure (if size ≠ 2 ^ 31 - 1 then poolSize else "Maximum".toList)

end Reading

/-! ### Computations in a JVM -/

namespace Analysis

variable {α β : Type} {x : Analysis α} {f : α → Analysis β} {s t : Statics}

theorem bind_of_ok {a : α} (h : x s = (.ok a, t)) : (x >>= f) s = f a t := by
  simp only [bind, ExceptT.bind, ExceptT.mk, StateT.bind, h, ExceptT.bindCont]

theorem bind_of_error {e : AnalysisError} (h : x s = (.error e, t)) :
    (x >>= f) s = (.error e, t) := by
  simp only [bind, ExceptT.bind, ExceptT.mk, StateT.bind, h, ExceptT.bindCont]
  rfl

/-- A computation that gives the same in all states. -/
def Steady (x : Analysis α) : Prop := ∀ s t, (x s).1 = (x t).1

/-- A computation that leaves the array of default processors as it is. -/
def Keeps (x : Analysis α) : Prop :=
  ∀ s, (x s).2.defaultGaugeCsvProcessors = s.defaultGaugeCsvProcessors

/-- What a computation gives before another one: its value, or an exception that ends both. -/
theorem bind_cases (x : Analysis α) (f : α → Analysis β) (s : Statics) :
    (∃ a t, x s = (.ok a, t) ∧ (x >>= f) s = f a t) ∨
      ∃ e t, x s = (.error e, t) ∧ (x >>= f) s = (.error e, t) := by
  rcases hx : x s with ⟨outcome, t⟩
  cases outcome with
  | ok a => exact .inl ⟨a, t, rfl, bind_of_ok hx⟩
  | error e => exact .inr ⟨e, t, rfl, bind_of_error hx⟩

theorem steady_ofExcept (x : Except AnalysisError α) : (ofExcept x).Steady := fun _ _ => rfl

theorem keeps_ofExcept (x : Except AnalysisError α) : (ofExcept x).Keeps := fun _ => rfl

theorem steady_pure (a : α) : (pure a : Analysis α).Steady := fun _ _ => rfl

theorem keeps_pure (a : α) : (pure a : Analysis α).Keeps := fun _ => rfl

theorem steady_throw (e : AnalysisError) : (throw e : Analysis α).Steady := fun _ _ => rfl

theorem keeps_throw (e : AnalysisError) : (throw e : Analysis α).Keeps := fun _ => rfl

/-- A computation whose value does not matter to what follows: only whether it throws may not
depend on the state. -/
theorem steady_bind_of_map (hx : ∀ s t, (x s).1.map (fun _ => ()) = (x t).1.map (fun _ => ()))
    (hf : ∀ a b s t, (x s).1 = .ok a → (x t).1 = .ok b → ∀ u v, (f a u).1 = (f b v).1) :
    (x >>= f).Steady := by
  intro s t
  have hst := hx s t
  obtain ⟨a, u, hxs, hs⟩ | ⟨e, u, hxs, hs⟩ := bind_cases x f s <;>
    obtain ⟨b, v, hxt, ht⟩ | ⟨e', v, hxt, ht⟩ := bind_cases x f t <;>
      rw [hxs, hxt] at hst
  · rw [hs, ht]
    exact hf a b s t (by rw [hxs]) (by rw [hxt]) u v
  · cases hst
  · cases hst
  · rw [hs, ht]
    cases hst
    rfl

theorem Steady.bind (hx : x.Steady) (hf : ∀ a, (f a).Steady) : (x >>= f).Steady := by
  refine steady_bind_of_map (fun s t => by rw [hx s t]) fun a b s t ha hb u v => ?_
  obtain rfl : a = b := Except.ok.inj (ha.symm.trans ((hx s t).trans hb))
  exact hf a u v

theorem Keeps.bind (hx : x.Keeps) (hf : ∀ a, (f a).Keeps) : (x >>= f).Keeps := by
  intro s
  have hs := hx s
  obtain ⟨a, t, hxs, hbind⟩ | ⟨e, t, hxs, hbind⟩ := bind_cases x f s
  · rw [hbind, hf a t]
    rwa [hxs] at hs
  · rw [hbind]
    rwa [hxs] at hs

variable {γ : Type} {g : γ → Analysis α} {l : List γ}

theorem steady_mapM (h : ∀ c ∈ l, (g c).Steady) : (l.mapM g).Steady := by
  induction l with
  | nil => exact steady_pure _
  | cons c l ih =>
    obtain ⟨hc, hl⟩ := List.forall_mem_cons.mp h
    rw [List.mapM_cons]
    exact hc.bind fun _ => (ih hl).bind fun _ => steady_pure _

theorem keeps_mapM (h : ∀ c ∈ l, (g c).Keeps) : (l.mapM g).Keeps := by
  induction l with
  | nil => exact keeps_pure _
  | cons c l ih =>
    obtain ⟨hc, hl⟩ := List.forall_mem_cons.mp h
    rw [List.mapM_cons]
    exact hc.bind fun _ => (ih hl).bind fun _ => keeps_pure _

end Analysis

/-! ### Reading a column of values -/

section Reading

open Analysis

variable {F D : Type} [Mul D] [Div D] [NatCast D] {lib : AnalysisLibrary D}
  {processor : CellProcessor} {processors : List CellProcessor}

theorem keeps_execute (value : Cell) : (processor.execute lib value).Keeps := by
  cases processor with
  | relativeTimeInSeconds =>
    refine (keeps_ofExcept _).bind fun length => ?_
    intro s
    rfl
  | double | parseCpuUsagePercent | convertByteToMegabyte | convertBytesToKiloBytes =>
    exact (keeps_ofExcept _).bind fun _ => keeps_pure _
  | integer declaredBy =>
    cases value with
    | none => exact keeps_throw _
    | some value => exact (keeps_ofExcept _).bind fun _ => keeps_pure _

/-- All processors but the one of times are steady. -/
theorem steady_execute (h : processor ≠ .relativeTimeInSeconds) (value : Cell) :
    (processor.execute lib value).Steady := by
  cases processor with
  | relativeTimeInSeconds => exact absurd rfl h
  | double | parseCpuUsagePercent | convertByteToMegabyte | convertBytesToKiloBytes =>
    exact (steady_ofExcept _).bind fun _ => steady_pure _
  | integer declaredBy =>
    cases value with
    | none => exact steady_throw _
    | some value => exact (steady_ofExcept _).bind fun _ => steady_pure _

/-- Whether the processor of times throws does not depend on the first time. -/
theorem map_execute_relativeTimeInSeconds (value : Cell) (s t : Statics) :
    (CellProcessor.relativeTimeInSeconds.execute lib value s).1.map (fun _ => ()) =
      (CellProcessor.relativeTimeInSeconds.execute lib value t).1.map (fun _ => ()) := by
  cases hvalue : lib.parseLong value with
  | error e => simp only [CellProcessor.execute, hvalue]; rfl
  | ok length => simp only [CellProcessor.execute, hvalue]; rfl

theorem keeps_executeCellProcessors (row : List Cell) :
    (executeCellProcessors lib row processors).Keeps := by
  rw [executeCellProcessors]
  split
  · exact keeps_throw _
  · exact keeps_mapM fun _ _ => keeps_execute _

theorem keeps_readSample (row : Except AnalysisError (List Cell)) (columnIndex : ℕ) :
    (readSample lib processors columnIndex row).Keeps := by
  refine (keeps_ofExcept _).bind fun row => (keeps_executeCellProcessors row).bind fun values => ?_
  cases values[columnIndex]? with
  | none => exact keeps_throw _
  | some sample => exact keeps_pure _

/-- The value of a row is the same whatever the first time is. -/
theorem steady_readSample (h : processor ≠ .relativeTimeInSeconds)
    (row : Except AnalysisError (List Cell)) :
    (readSample lib [.relativeTimeInSeconds, processor] 1 row).Steady := by
  refine (steady_ofExcept _).bind fun row => ?_
  by_cases hlength : row.length = 2
  · obtain ⟨time, value, rfl⟩ := List.length_eq_two.mp hlength
    have hrow : executeCellProcessors lib [time, value] [.relativeTimeInSeconds, processor] =
        CellProcessor.relativeTimeInSeconds.execute lib time >>= fun first =>
          processor.execute lib value >>= fun second => pure [first, second] := by
      simp [executeCellProcessors]
    rw [hrow, bind_assoc]
    -- Of the time, nothing is used but that it can be read.
    refine steady_bind_of_map (map_execute_relativeTimeInSeconds time) fun a b s t _ _ u v => ?_
    simp only [bind_assoc, pure_bind]
    exact (steady_execute h value).bind (fun _ => steady_pure _) u v
  · have hrow : executeCellProcessors lib row [.relativeTimeInSeconds, processor] =
        throw .superCsv := if_pos hlength
    rw [hrow]
    exact (steady_throw _).bind fun values => by
      cases values[1]? with
      | none => exact steady_throw _
      | some sample => exact steady_pure _

theorem steady_getAggregatedCstStatistic (h : processor ≠ .relativeTimeInSeconds)
    (files : ResultFiles F) (csvFiles : List F) :
    (getAggregatedCstStatistic lib files csvFiles [.relativeTimeInSeconds, processor] 1).Steady :=
  (steady_mapM fun _ _ => steady_mapM fun _ _ => steady_readSample h _).bind fun _ => steady_pure _

theorem keeps_getAggregatedCstStatistic (files : ResultFiles F) (csvFiles : List F)
    (columnIndex : ℕ) :
    (getAggregatedCstStatistic lib files csvFiles processors columnIndex).Keeps :=
  (keeps_mapM fun _ _ => keeps_mapM fun _ _ => keeps_readSample _ _).bind fun _ => keeps_pure _

end Reading

end Shabdiz
