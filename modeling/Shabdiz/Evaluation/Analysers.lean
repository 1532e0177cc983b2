import Shabdiz.Concurrency.SharedCalls
import Shabdiz.Evaluation.AnalyticsUtil

/-!
# Analysers of aggregated results

An analyser makes a dataset of the results of several experiments: for every directory of results,
the mean of the samples in the CSV files of one name. Which cell processors it reads the files with
is up to `getCellProcessors`. `AggregatedCrossRepetitionPerPropertyAnalyzer` returns the array of
default processors, and the classes that extend it put their own value processor *into that array*,
which is the static one that every analyser gets.

A dataset is made once and kept. The field is set before the directories are read, so an exception
leaves what there is of the dataset.

## Main definitions

* `Analyser`, `ResourceConsumption.cpuUsage` and the other factories — analysers
* `Analyser.getCellProcessors`, `Analyser.getDataset` — what they do
* `analyserCalls` — calls on several analysers in one JVM
* `Independent` — every analyser does what it does alone in a fresh JVM
* `KeepDefault` — no analyser with a value processor comes to use it

## Main results

* `Analyser.getDataset_default` — what a dataset leaves in the array of default processors
* `independent_iff` — when analysers do not influence one another
-/

namespace Shabdiz

/-! ### The classes -/

/-- An analyser: `AggregatedCrossRepetitionPerPropertyAnalyzer` itself, which has no value
processor, or one of the classes that extend it. No factory passes a default processor. -/
structure Analyser (F : Type) where
  shape : Option ResourceConsumption
  resultsPath : F
  fileName : List Char
  propertyKey : List Char
  valueProcessor : Option CellProcessor
  valueProcessor_eq : shape = none → valueProcessor = none
  notMem_default : ∀ p ∈ valueProcessor, p ∉ defaultGaugeCsvProcessors

variable {F : Type}

/-- The analyser of one property of the experiments, which has no gauge file and no cell processors
of its own. -/
def aggregatedCrossRepetitionPerPropertyAnalyzer (resultsPath : F)
    (fileName propertyKey : List Char) : Analyser F where
  shape := none
  resultsPath := resultsPath
  fileName := fileName
  propertyKey := propertyKey
  valueProcessor := none
  valueProcessor_eq _ := rfl
  notMem_default := by simp

namespace ResourceConsumption

/-- The property that the constructor of each class passes. -/
def propertyKey : ResourceConsumption → List Char
  | perApplication => "manager".toList
  | perDeploymentStrategy => "manager".toList
  | perNetworkSize => "network_size".toList
  | perScannerInterval => "scanner.interval".toList
  | perThreadPoolSize => "concurrent_scanner.thread_pool_size".toList

/-- The constructor of a class. -/
def analyser (c : ResourceConsumption) (resultsPath : F) (fileName : List Char)
    (valueProcessor : Option CellProcessor)
    (h : ∀ p ∈ valueProcessor, p ∉ defaultGaugeCsvProcessors) : Analyser F where
  shape := some c
  resultsPath := resultsPath
  fileName := fileName
  propertyKey := c.propertyKey
  valueProcessor := valueProcessor
  valueProcessor_eq := by simp
  notMem_default := h

/-- The CPU usage, in percent. -/
def cpuUsage (c : ResourceConsumption) (resultsPath : F) : Analyser F :=
  c.analyser resultsPath "cpu_gauge.csv".toList (some .parseCpuUsagePercent) (by decide)

/-- The memory usage, in megabytes. -/
def memoryUsage (c : ResourceConsumption) (resultsPath : F) : Analyser F :=
  c.analyser resultsPath "memory_gauge.csv".toList (some .convertByteToMegabyte) (by decide)

/-- The number of threads. -/
def threadCount (c : ResourceConsumption) (resultsPath : F) : Analyser F :=
  c.analyser resultsPath "thread_count_gauge.csv".toList (some (.integer c))
    (by simp [defaultGaugeCsvProcessors])

/-- The load average of the system. -/
def systemLoadAverage (c : ResourceConsumption) (resultsPath : F) : Analyser F :=
  c.analyser resultsPath "system_load_average_gauge.csv".toList none (by simp)

/-- The kilobytes sent each second. -/
def kilobytesOutPerSecond (c : ResourceConsumption) (resultsPath : F) : Analyser F :=
  c.analyser resultsPath "ganglia_bytes_out.csv".toList (some .convertBytesToKiloBytes) (by decide)

/-- The kilobytes received each second. -/
def kilobytesInPerSecond (c : ResourceConsumption) (resultsPath : F) : Analyser F :=
  c.analyser resultsPath "ganglia_bytes_in.csv".toList (some .convertBytesToKiloBytes) (by decide)

/-- The packets sent each second. -/
def packetsOutPerSecond (c : ResourceConsumption) (resultsPath : F) : Analyser F :=
  c.analyser resultsPath "ganglia_packets_out.csv".toList none (by simp)

/-- The packets received each second. -/
def packetsInPerSecond (c : ResourceConsumption) (resultsPath : F) : Analyser F :=
  c.analyser resultsPath "ganglia_packets_in.csv".toList none (by simp)

end ResourceConsumption

/-! ### What an analyser does -/

/-- What is added to a dataset for a directory. -/
structure DatasetEntry (D : Type) where
  mean : D
  confidenceInterval95Percent : D
  rowKey : List Char
  columnKey : List Char
deriving DecidableEq

/-- What `getDataset` does: the processors that each directory was read with, whether it throws, the
dataset it leaves, and the statics. -/
structure Evaluation (D : Type) where
  used : List (List CellProcessor)
  outcome : Except AnalysisError Unit
  dataset : List (DatasetEntry D)
  statics : Statics

namespace Analyser

variable {D : Type} [Mul D] [Div D] [NatCast D] (lib : AnalysisLibrary D) (files : ResultFiles F)

/-- `getCellProcessors`: the array of default processors, into which the value processor is put. -/
def getCellProcessors (a : Analyser F) (s : Statics) : List CellProcessor × Statics :=
  let cellProcessors := s.defaultGaugeCsvProcessors
  match a.valueProcessor with
  | none => (cellProcessors, s)
  | some p =>
    let cellProcessors := cellProcessors.set 1 p
    (cellProcessors, { s with defaultGaugeCsvProcessors := cellProcessors })

/-- The keys of a directory, under which its mean is added to the dataset. -/
def keys (a : Analyser F) (file : F) :
    Except AnalysisError (List Char × Option (List Char)) := do
  match a.shape with
  | none | some .perNetworkSize | some .perScannerInterval =>
    let label ← getLabel files file a.propertyKey
    let application ← decorateManagerAsApplicationName lib (← getLabel files file "manager".toList)
    pure (application, label)
  | some .perApplication =>
    let application ← decorateManagerAsApplicationName lib (← getLabel files file "manager".toList)
    pure ([], some application)
  | some .perDeploymentStrategy =>
    let label ← getLabel files file a.propertyKey
    let application ← decorateManagerAsApplicationName lib label
    let strategy ← decorateManagerAsDeploymentStrategy label
    pure (application, some strategy)
  | some .perThreadPoolSize =>
    let label ← getLabel files file a.propertyKey
    let application ← decorateManagerAsApplicationName lib (← getLabel files file "manager".toList)
    let poolSize ← decoratePoolSize lib label
    pure (application, some poolSize)

/-- What is added for a directory that is read with some processors. A dataset has no `null` as a
key. -/
def entry (a : Analyser F) (file : F) (processors : List CellProcessor) :
    Analysis (DatasetEntry D) := do
  let samples ← getAggregatedCstStatistic lib files (getFilesByName files file a.fileName)
    processors 1
  let (rowKey, columnKey) ← .ofExcept (a.keys lib files file)
  match columnKey with
  | none => throw .illegalArgument
  | some columnKey =>
    pure ⟨lib.mean samples, lib.confidenceInterval95Percent samples, rowKey, columnKey⟩

/-- The loop over the directories. -/
def addDirectories (a : Analyser F) : List F → List (DatasetEntry D) → Statics → Evaluation D
  | [], dataset, s => ⟨[], .ok (), dataset, s⟩
  | file :: rest, dataset, s =>
    let (processors, s) := a.getCellProcessors s
    match (a.entry lib files file processors).run.run s with
    | (.error e, s) => ⟨[processors], .error e, dataset, s⟩
    | (.ok entry, s) =>
      let evaluation := addDirectories a rest (dataset ++ [entry]) s
      { evaluation with used := processors :: evaluation.used }

/-- The directories that a dataset is made of. `none` is `null`, over which the loop throws. -/
def directories (a : Analyser F) : Option (List F) :=
  listSubDirectoriesExcluding files a.resultsPath ["analysis".toList]

/-- `getDataset`, given the dataset that was kept. -/
def getDataset (a : Analyser F) (kept : Option (List (DatasetEntry D))) (s : Statics) :
    Evaluation D :=
  match kept with
  | some dataset => ⟨[], .ok (), dataset, s⟩
  | none =>
    match a.directories files with
    | none => ⟨[], .error .nullPointer, [], s⟩
    | some found => a.addDirectories lib files found [] s

end Analyser

/-! ### Calls on several analysers -/

/-- The methods of an analyser that a caller may call. -/
inductive AnalyserMethod where
  | getDataset
  | getCellProcessors
deriving DecidableEq

/-- What a call returns, with the processors that were used for it. -/
inductive AnalyserResult (D : Type) where
  | dataset (used : List (List CellProcessor))
      (dataset : Except AnalysisError (List (DatasetEntry D)))
  | cellProcessors (cellProcessors : List CellProcessor)
deriving DecidableEq

section Calls

variable {ι D : Type} [DecidableEq ι] [Mul D] [Div D] [NatCast D] (lib : AnalysisLibrary D)
  (files : ResultFiles F) (analysers : ι → Analyser F)

/-- Calls on the analysers in one JVM. Each analyser has its dataset, if it was made. -/
def analyserCalls : SharedCalls ι AnalyserMethod (Option (List (DatasetEntry D))) Statics
    (AnalyserResult D) where
  call i c kept s :=
    match c with
    | .getDataset =>
      let evaluation := (analysers i).getDataset lib files kept s
      (.dataset evaluation.used (evaluation.outcome.map fun _ => evaluation.dataset),
        some evaluation.dataset, evaluation.statics)
    | .getCellProcessors =>
      let (cellProcessors, s) := (analysers i).getCellProcessors s
      (.cellProcessors cellProcessors, kept, s)

/-- In a sequence of calls in a fresh JVM, every analyser uses the processors and returns the
datasets that it does when the calls on it are the only ones, and the array of default processors
is the same before and after. -/
def Independent (calls : List (ι × AnalyserMethod)) : Prop :=
  (∀ i, ((analyserCalls lib files analysers).results (fun _ => none) .fresh calls).filter
      (·.1 = i) =
    (analyserCalls lib files analysers).results (fun _ => none) .fresh
      (calls.filter (·.1 = i))) ∧
  ((analyserCalls lib files analysers).shared (fun _ => none) .fresh
    calls).defaultGaugeCsvProcessors = defaultGaugeCsvProcessors

/-- Whether a method of an analyser without a dataset comes to call `getCellProcessors`. -/
def ComesToProcessors (a : Analyser F) : AnalyserMethod → Prop
  | .getDataset => ∃ file rest, a.directories files = some (file :: rest)
  | .getCellProcessors => True

/-- No analyser that has a value processor comes to use it. -/
def KeepDefault (calls : List (ι × AnalyserMethod)) : Prop :=
  ∀ p ∈ calls, ComesToProcessors files (analysers p.1) p.2 → (analysers p.1).valueProcessor = none

end Calls

/-! ### The array of default processors -/

namespace Analyser

variable {D : Type} [Mul D] [Div D] [NatCast D] {lib : AnalysisLibrary D} {files : ResultFiles F}
  {a : Analyser F} {s t : Statics} {found : List F} {dataset : List (DatasetEntry D)}

theorem getCellProcessors_default :
    (a.getCellProcessors s).2.defaultGaugeCsvProcessors = (a.getCellProcessors s).1 := by
  rw [getCellProcessors]
  split <;> rfl

/-- Without a value processor, the array is returned as it is. -/
theorem getCellProcessors_of_none (hp : a.valueProcessor = none) :
    a.getCellProcessors s = (s.defaultGaugeCsvProcessors, s) := by
  rw [getCellProcessors, hp]

/-- Putting the value processor into the array again changes nothing. -/
theorem getCellProcessors_again
    (h : t.defaultGaugeCsvProcessors = (a.getCellProcessors s).1) :
    (a.getCellProcessors t).1 = (a.getCellProcessors s).1 := by
  cases hp : a.valueProcessor with
  | none =>
    rw [getCellProcessors_of_none hp] at h
    rw [getCellProcessors_of_none hp, getCellProcessors_of_none hp, h]
  | some p =>
    simp only [getCellProcessors, hp] at h ⊢
    rw [h, List.set_set]

theorem keeps_entry (file : F) (processors : List CellProcessor) :
    (a.entry lib files file processors).Keeps := by
  refine (keeps_getAggregatedCstStatistic _ _ _).bind fun samples => ?_
  refine (Analysis.keeps_ofExcept _).bind fun keys => ?_
  obtain ⟨rowKey, _ | columnKey⟩ := keys
  · exact Analysis.keeps_throw _
  · exact Analysis.keeps_pure _

theorem steady_entry (file : F) {processor : CellProcessor}
    (h : processor ≠ .relativeTimeInSeconds) :
    (a.entry lib files file [.relativeTimeInSeconds, processor]).Steady := by
  refine (steady_getAggregatedCstStatistic h _ _).bind fun samples => ?_
  refine (Analysis.steady_ofExcept _).bind fun keys => ?_
  obtain ⟨rowKey, _ | columnKey⟩ := keys
  · exact Analysis.steady_throw _
  · exact Analysis.steady_pure _

theorem addDirectories_of_error {file : F} {e : AnalysisError}
    (h : a.entry lib files file (a.getCellProcessors s).1 (a.getCellProcessors s).2 =
      (.error e, t)) :
    a.addDirectories lib files (file :: found) dataset s =
      ⟨[(a.getCellProcessors s).1], .error e, dataset, t⟩ := by
  simp only [addDirectories, ExceptT.run, StateT.run, h]

theorem addDirectories_of_ok {file : F} {entry : DatasetEntry D}
    (h : a.entry lib files file (a.getCellProcessors s).1 (a.getCellProcessors s).2 =
      (.ok entry, t)) :
    a.addDirectories lib files (file :: found) dataset s =
      { a.addDirectories lib files found (dataset ++ [entry]) t with
        used := (a.getCellProcessors s).1 ::
          (a.addDirectories lib files found (dataset ++ [entry]) t).used } := by
  simp only [addDirectories, ExceptT.run, StateT.run, h]

/-- The loop leaves in the array what `getCellProcessors` put there, if it comes to call it. -/
theorem addDirectories_default (hfound : found ≠ []) :
    (a.addDirectories lib files found dataset s).statics.defaultGaugeCsvProcessors =
      (a.getCellProcessors s).1 := by
  induction found generalizing dataset s with
  | nil => exact absurd rfl hfound
  | cons file found ih =>
    have hkeeps : (a.entry lib files file (a.getCellProcessors s).1).Keeps := keeps_entry _ _
    have hdefault := hkeeps (a.getCellProcessors s).2
    rw [getCellProcessors_default] at hdefault
    rcases hentry : a.entry lib files file (a.getCellProcessors s).1 (a.getCellProcessors s).2 with
      ⟨_ | entry, t⟩ <;> rw [hentry] at hdefault
    · rw [addDirectories_of_error hentry]
      exact hdefault
    · rw [addDirectories_of_ok hentry]
      by_cases hrest : found = []
      · rw [hrest]
        exact hdefault
      · exact (ih hrest).trans (getCellProcessors_again hdefault)

/-- With the default processors, the loop does the same whatever the first time is. -/
theorem addDirectories_congr (hp : a.valueProcessor = none)
    (hs : s.defaultGaugeCsvProcessors = defaultGaugeCsvProcessors)
    (ht : t.defaultGaugeCsvProcessors = defaultGaugeCsvProcessors) :
    (a.addDirectories lib files found dataset s).used =
        (a.addDirectories lib files found dataset t).used ∧
      (a.addDirectories lib files found dataset s).outcome =
        (a.addDirectories lib files found dataset t).outcome ∧
      (a.addDirectories lib files found dataset s).dataset =
        (a.addDirectories lib files found dataset t).dataset := by
  induction found generalizing dataset s t with
  | nil => exact ⟨rfl, rfl, rfl⟩
  | cons file found ih =>
    have hsteady : (a.entry lib files file defaultGaugeCsvProcessors).Steady :=
      steady_entry file (by decide)
    have hkeeps : (a.entry lib files file defaultGaugeCsvProcessors).Keeps := keeps_entry _ _
    have hst := hsteady s t
    have hs' := (hkeeps s).trans hs
    have ht' := (hkeeps t).trans ht
    have hentry (u : Statics) (hu : u.defaultGaugeCsvProcessors = defaultGaugeCsvProcessors) :
        a.entry lib files file (a.getCellProcessors u).1 (a.getCellProcessors u).2 =
          a.entry lib files file defaultGaugeCsvProcessors u := by
      rw [getCellProcessors_of_none hp, hu]
    rcases hes : a.entry lib files file defaultGaugeCsvProcessors s with ⟨outcome, s'⟩
    rcases het : a.entry lib files file defaultGaugeCsvProcessors t with ⟨outcome', t'⟩
    rw [hes] at hst hs'
    rw [het] at hst ht'
    obtain rfl : outcome = outcome' := hst
    have hused : (a.getCellProcessors s).1 = (a.getCellProcessors t).1 := by
      rw [getCellProcessors_of_none hp, getCellProcessors_of_none hp, hs, ht]
    cases outcome with
    | error e =>
      rw [addDirectories_of_error ((hentry s hs).trans hes),
        addDirectories_of_error ((hentry t ht).trans het), hused]
      exact ⟨rfl, rfl, rfl⟩
    | ok entry =>
      rw [addDirectories_of_ok ((hentry s hs).trans hes),
        addDirectories_of_ok ((hentry t ht).trans het), hused]
      obtain ⟨hu, ho, hd⟩ := ih hs' ht'
      exact ⟨congrArg (List.cons _) hu, ho, hd⟩

/-- **What a dataset leaves in the array**: what `getCellProcessors` puts there, if there is a
directory to read and the dataset has not been made. -/
theorem getDataset_default (h : ComesToProcessors files a .getDataset) :
    (a.getDataset (D := D) lib files none s).statics.defaultGaugeCsvProcessors =
      (a.getCellProcessors s).1 := by
  obtain ⟨file, rest, hfound⟩ := h
  simp only [getDataset, hfound]
  exact addDirectories_default (List.cons_ne_nil _ _)

/-- With the default processors, a dataset is the same whatever the first time is: one that is kept,
and one of no directory, have nothing to do with the statics. -/
theorem getDataset_congr (lib : AnalysisLibrary D) (kept : Option (List (DatasetEntry D)))
    (h : ComesToProcessors files a .getDataset → a.valueProcessor = none)
    (hs : s.defaultGaugeCsvProcessors = defaultGaugeCsvProcessors)
    (ht : t.defaultGaugeCsvProcessors = defaultGaugeCsvProcessors) :
    (a.getDataset lib files kept s).used = (a.getDataset lib files kept t).used ∧
      (a.getDataset lib files kept s).outcome = (a.getDataset lib files kept t).outcome ∧
      (a.getDataset lib files kept s).dataset = (a.getDataset lib files kept t).dataset := by
  cases kept with
  | some dataset => exact ⟨rfl, rfl, rfl⟩
  | none =>
    cases hfound : a.directories files with
    | none => simp only [getDataset, hfound, and_self]
    | some found =>
      cases found with
      | nil => simp only [getDataset, hfound, addDirectories, and_self]
      | cons file rest =>
        simp only [getDataset, hfound]
        exact addDirectories_congr (h ⟨file, rest, hfound⟩) hs ht

theorem getDataset_statics {kept : Option (List (DatasetEntry D))}
    (h : kept = none → ¬ ComesToProcessors files a .getDataset) :
    (a.getDataset lib files kept s).statics = s := by
  cases kept with
  | some dataset => rfl
  | none =>
    cases hfound : a.directories files with
    | none => simp only [getDataset, hfound]
    | some found =>
      cases found with
      | nil => simp only [getDataset, hfound, addDirectories]
      | cons file rest => exact absurd ⟨file, rest, hfound⟩ (h rfl)

end Analyser

/-! ### When analysers do not influence one another -/

section Calls

variable {ι D : Type} [Mul D] [Div D] [NatCast D] {lib : AnalysisLibrary D}
  {files : ResultFiles F} {analysers : ι → Analyser F} {i : ι} {c : AnalyserMethod}
  {o : ι → Option (List (DatasetEntry D))} {s : Statics} {calls : List (ι × AnalyserMethod)}

/-- A call is harmless among the statics with the default processors, if it does not come to use a
value processor. -/
theorem harmless_analyserCalls
    (h : ComesToProcessors files (analysers i) c → (analysers i).valueProcessor = none) :
    (analyserCalls lib files analysers).Harmless
      (fun s => s.defaultGaugeCsvProcessors = defaultGaugeCsvProcessors) i c := by
  cases c with
  | getCellProcessors =>
    refine ⟨fun kept s t hs ht => ?_, fun kept s t hs ht => rfl, fun kept s hs => ?_⟩
    · simp only [analyserCalls, Analyser.getCellProcessors_of_none (h trivial), hs, ht]
    · simp only [analyserCalls, Analyser.getCellProcessors_of_none (h trivial), hs]
  | getDataset =>
    refine ⟨fun kept s t hs ht => ?_, fun kept s t hs ht => ?_, fun kept s hs => ?_⟩
    · obtain ⟨hused, houtcome, hdataset⟩ := Analyser.getDataset_congr lib kept h hs ht
      simp only [analyserCalls, hused, houtcome, hdataset]
    · exact congrArg some (Analyser.getDataset_congr lib kept h hs ht).2.2
    · by_cases hcomes : kept = none ∧ ComesToProcessors files (analysers i) .getDataset
      · obtain ⟨rfl, hcomes⟩ := hcomes
        refine (Analyser.getDataset_default hcomes).trans ?_
        rw [Analyser.getCellProcessors_of_none (h hcomes), hs]
      · have hstatics : ((analysers i).getDataset lib files kept s).statics = s :=
          Analyser.getDataset_statics fun hkept hc => hcomes ⟨hkept, hc⟩
        simp only [analyserCalls, hstatics, hs]

/-- A value processor is where the default processor of values was. -/
def IsScaled (s : Statics) : Prop :=
  ∃ p, p ∉ defaultGaugeCsvProcessors ∧ s.defaultGaugeCsvProcessors[1]? = some p

/-- What one call does to the array: nothing, or what `getCellProcessors` does. -/
theorem call_default {kept : Option (List (DatasetEntry D))} {t : Statics}
    (h : ((analyserCalls lib files analysers).call i c kept s).2.2 = t) :
    (t.defaultGaugeCsvProcessors = s.defaultGaugeCsvProcessors ∧
        ¬ ((c = .getDataset → kept = none) ∧ ComesToProcessors files (analysers i) c)) ∨
      (t.defaultGaugeCsvProcessors = ((analysers i).getCellProcessors s).1 ∧
        (c = .getDataset → kept = none) ∧ ComesToProcessors files (analysers i) c) := by
  subst h
  cases c with
  | getCellProcessors =>
    exact .inr ⟨Analyser.getCellProcessors_default, by rintro ⟨⟩, trivial⟩
  | getDataset =>
    by_cases hcomes : kept = none ∧ ComesToProcessors files (analysers i) .getDataset
    · obtain ⟨rfl, hcomes⟩ := hcomes
      exact .inr ⟨Analyser.getDataset_default hcomes, fun _ => rfl, hcomes⟩
    · have hstatics : ((analysers i).getDataset lib files kept s).statics = s :=
        Analyser.getDataset_statics fun hkept hc => hcomes ⟨hkept, hc⟩
      refine .inl ⟨?_, fun h => hcomes ⟨h.1 rfl, h.2⟩⟩
      simp only [analyserCalls, hstatics]

theorem isScaled_of_valueProcessor {a : Analyser F} {p : CellProcessor} {t : Statics}
    (hp : a.valueProcessor = some p) (hlength : 1 < s.defaultGaugeCsvProcessors.length)
    (ht : t.defaultGaugeCsvProcessors = (a.getCellProcessors s).1) : IsScaled t := by
  refine ⟨p, a.notMem_default p hp, ?_⟩
  rw [ht]
  simp [Analyser.getCellProcessors, hp, hlength]

/-- No call puts the default processor back. -/
theorem IsScaled.call (h : IsScaled s) (kept : Option (List (DatasetEntry D))) :
    IsScaled ((analyserCalls lib files analysers).call i c kept s).2.2 := by
  obtain ⟨p, hp, hget⟩ := h
  generalize ht : ((analyserCalls lib files analysers).call i c kept s).2.2 = t
  obtain ⟨hsame, -⟩ | ⟨hput, -⟩ := call_default ht
  · exact ⟨p, hp, by rw [hsame, hget]⟩
  · cases hvalue : (analysers i).valueProcessor with
    | none =>
      refine ⟨p, hp, ?_⟩
      rw [hput, Analyser.getCellProcessors_of_none hvalue, hget]
    | some q =>
      have hlength : 1 < s.defaultGaugeCsvProcessors.length := by
        by_contra hnot
        rw [List.getElem?_eq_none (by omega)] at hget
        cases hget
      exact isScaled_of_valueProcessor hvalue hlength hput

variable [DecidableEq ι]

theorem IsScaled.shared (h : IsScaled s) :
    IsScaled ((analyserCalls lib files analysers).shared o s calls) := by
  induction calls generalizing o s with
  | nil => exact h
  | cons p calls ih =>
    rw [SharedCalls.shared_cons]
    exact ih (h.call _)

/-- Once an analyser with a value processor comes to use it, the array is not the default one. -/
theorem isScaled_shared (hs : s.defaultGaugeCsvProcessors = defaultGaugeCsvProcessors)
    (h : ∃ p ∈ calls, (p.2 = .getDataset → o p.1 = none) ∧
      ComesToProcessors files (analysers p.1) p.2 ∧ (analysers p.1).valueProcessor ≠ none) :
    IsScaled ((analyserCalls lib files analysers).shared o s calls) := by
  induction calls generalizing o s with
  | nil => simp at h
  | cons q calls ih =>
    obtain ⟨j, c⟩ := q
    rw [SharedCalls.shared_cons]
    have hlength : 1 < s.defaultGaugeCsvProcessors.length := by
      rw [hs]
      decide
    have hcall := call_default
      (rfl : ((analyserCalls lib files analysers).call j c (o j) s).2.2 = _)
    by_cases hj : (c = .getDataset → o j = none) ∧ ComesToProcessors files (analysers j) c ∧
        (analysers j).valueProcessor ≠ none
    · obtain ⟨hkept, hcomes, hvalue⟩ := hj
      obtain ⟨p, hp⟩ := Option.ne_none_iff_exists'.mp hvalue
      obtain ⟨-, hnot⟩ | ⟨hput, -⟩ := hcall
      · exact absurd ⟨hkept, hcomes⟩ hnot
      · exact (isScaled_of_valueProcessor hp hlength hput).shared
    · -- This call leaves the array as it is, and the one that does not is still to come.
      obtain ⟨⟨i, c'⟩, hmem, hkept, hcomes, hvalue⟩ := h
      have hmem : (i, c') ∈ calls := by
        obtain heq | hmem := List.mem_cons.mp hmem
        · cases heq
          exact absurd ⟨hkept, hcomes, hvalue⟩ hj
        · exact hmem
      have hsame : ((analyserCalls lib files analysers).call j c (o j)
          s).2.2.defaultGaugeCsvProcessors = defaultGaugeCsvProcessors := by
        obtain ⟨hsame, -⟩ | ⟨hput, hkept', hcomes'⟩ := hcall
        · rw [hsame, hs]
        · have hnone : (analysers j).valueProcessor = none := by
            by_contra hvalue'
            exact hj ⟨hkept', hcomes', hvalue'⟩
          rw [hput, Analyser.getCellProcessors_of_none hnone, hs]
      refine ih hsame ⟨(i, c'), hmem, fun hc' => ?_, hcomes, hvalue⟩
      by_cases hij : i = j
      · subst hij
        subst hc'
        -- The earlier call on the same analyser would have come to its value processor too.
        refine absurd ?_ hj
        cases c with
        | getDataset => exact ⟨fun _ => hkept rfl, hcomes, hvalue⟩
        | getCellProcessors => exact ⟨by rintro ⟨⟩, trivial, hvalue⟩
      · simp [Function.update_of_ne hij, hkept hc']

/-- **When analysers do not influence one another**: if and only if none of those that have a value
processor comes to use it. -/
theorem independent_iff :
    Independent lib files analysers calls ↔ KeepDefault files analysers calls := by
  constructor
  · rintro ⟨-, hdefault⟩ p hp hcomes
    by_contra hvalue
    have hscaled : IsScaled ((analyserCalls lib files analysers).shared (fun _ => none) .fresh
        calls) := isScaled_shared rfl ⟨p, hp, fun _ => rfl, hcomes, hvalue⟩
    obtain ⟨q, hq, hget⟩ := hscaled
    rw [hdefault] at hget
    exact hq (List.mem_of_getElem? hget)
  · intro h
    have hharmless : ∀ p ∈ calls, (analyserCalls lib files analysers).Harmless
        (fun s => s.defaultGaugeCsvProcessors = defaultGaugeCsvProcessors) p.1 p.2 :=
      fun p hp => harmless_analyserCalls (h p hp)
    exact ⟨fun i => SharedCalls.filter_results i hharmless rfl rfl rfl,
      SharedCalls.shared_of_harmless hharmless rfl⟩

end Calls

/-! ### Two charts of one experiment -/

/-- The results of one run: paths are lists of names. Its CSV files have two rows with the value
`2`. -/
def oneRun : ResultFiles (List String) where
  name path := (path.getLast?.getD "").toList
  isDirectory path := path.length < 2
  listFiles path := if path = [] then some [["run"]] else none
  filesBelow path :=
    ["cpu_gauge.csv", "ganglia_packets_in.csv", "experiment.properties"].map fun name =>
      path ++ [name]
  rows _ := [.ok [some ['0'], some ['2']], .ok [some ['1'], some ['2']]]
  properties _ := .ok fun key =>
    some (if key = "manager".toList then "EchoApplicationManager".toList else "10".toList)

/-- Libraries, as far as whole numbers of one digit go. -/
def oneDigit : AnalysisLibrary ℤ where
  parseLong
    | some [c] => .ok (Int64.ofNat (c.toNat - 48))
    | _ => .error .numberFormat
  parseDouble
    | some [c] => .ok (c.toNat - 48)
    | _ => .error .numberFormat
  parseInt
    | [c] => .ok (c.toNat - 48)
    | _ => .error .numberFormat
  mean samples := (samples.map fun
    | .double d => d
    | .integer i => i
    | .long l => l.toInt).sum / samples.length
  confidenceInterval95Percent _ := 0
  isWhitespace c := c = ' '
  toTitleCase c := c.toUpper

/-- The chart of processor usage, and then the chart of packets. -/
def cpuThenPackets : Fin 2 → Analyser (List String)
  | 0 => ResourceConsumption.perNetworkSize.cpuUsage []
  | 1 => ResourceConsumption.perNetworkSize.packetsInPerSecond []

/-- The numbers of packets come out a hundred times as large as they are. -/
theorem not_independent_cpuThenPackets :
    ¬ Independent oneDigit oneRun cpuThenPackets [(0, .getDataset), (1, .getDataset)] := by
  intro h
  have hpackets := h.1 1
  revert hpackets
  decide

end Shabdiz
