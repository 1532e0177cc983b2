import Shabdiz.Host.Manifest

/-!
# The configuration of a bootstrap

The launcher writes the configuration of a bootstrap as a manifest with one section, and the
bootstrap reads it on the remote host. Each of the five sets of the configuration becomes one
attribute: the entries with a tab after each, in the order of the set's iterator, and trimmed.

`none` stands for a `NullPointerException`, which reading throws when an attribute is missing.

## Main definitions

* `BootstrapConfiguration`, `Iteration` — configurations, and the order of iterating over a set
* `toManifest`, `fromManifest`, `write`, `read` — how a configuration is written and read
* `BootstrapConfiguration.IsAdmissible` — configurations that manifests can hold

## Main results

* `readFields_toText_iff` — when a set is read back
* `read_write_iff` — when a configuration is read back
-/

namespace Shabdiz

/-! ### Configurations -/

/-- What `String.trim` takes off: a space, and everything below it. -/
def isTrimmed (c : Char) : Bool := c.toNat ≤ 32

/-- `BootstrapConfiguration`. The class name is `null` until it is set. -/
@[ext]
structure BootstrapConfiguration where
  files : Finset (List Char)
  urls : Finset (List Char)
  mavenRepositories : Finset (List Char)
  mavenArtifacts : Finset (List Char)
  deleteOnExit : Finset (List Char)
  applicationBootstrapClassName : Option (List Char)
  deleteWorkingDirectoryOnExit : Bool
deriving DecidableEq

/-- An order in which a set can be iterated over. -/
structure Iteration (s : Finset (List Char)) where
  elements : List (List Char)
  nodup : elements.Nodup
  toFinset_eq : elements.toFinset = s

theorem Iteration.mem_elements {s : Finset (List Char)} (i : Iteration s) {e : List Char} :
    e ∈ i.elements ↔ e ∈ s := by
  rw [← List.mem_toFinset, i.toFinset_eq]

namespace BootstrapConfiguration

/-- The orders in which the sets of a configuration are iterated over. -/
structure Iterations (c : BootstrapConfiguration) where
  files : Iteration c.files
  urls : Iteration c.urls
  mavenRepositories : Iteration c.mavenRepositories
  mavenArtifacts : Iteration c.mavenArtifacts
  deleteOnExit : Iteration c.deleteOnExit

/-- The section of the manifest that holds the configuration. -/
def configFileAttributesName : List Char := "Shabdiz".toList

/-- The key of the bootstrap class. -/
def bootstrapClassKey : List Char := "Application-Bootstrap-Class".toList

/-- The key of the files of the class path. -/
def classpathFiles : List Char := "Class-Path-Files".toList

/-- The key of the URLs of the class path. -/
def classpathURLs : List Char := "Class-Path-URLs".toList

/-- The key of the Maven repositories. -/
def mavenRepositoriesKey : List Char := "Maven-Repositories".toList

/-- The key of the Maven artifacts. -/
def mavenArtifactsKey : List Char := "Maven-Artifacts".toList

/-- The key of the files that go when the JVM ends. -/
def filesToDeleteOnExit : List Char := "Delete-On-Exit".toList

/-- The key of whether the working directory goes too. -/
def deleteWdOnExit : List Char := "Delete-Working-Directory-On-Exit".toList

/-- `toString` of a collection: each element with a tab after it, trimmed. -/
def toText (elements : List (List Char)) : List Char := trim isTrimmed (terminated '\t' elements)

/-- `String.valueOf` of a `boolean`. -/
def flagText (flag : Bool) : List Char := if flag then "true".toList else "false".toList

/-- `Boolean.valueOf` of a text. -/
def flagOf (text : List Char) : Bool := text.map Char.toLower = "true".toList

/-- The attributes of a configuration. A value that is `null` is written as the text `null`. -/
def attributes (c : BootstrapConfiguration) (o : c.Iterations) : List (List Char × List Char) :=
  [(bootstrapClassKey, c.applicationBootstrapClassName.getD "null".toList),
    (classpathFiles, toText o.files.elements),
    (classpathURLs, toText o.urls.elements),
    (mavenRepositoriesKey, toText o.mavenRepositories.elements),
    (mavenArtifactsKey, toText o.mavenArtifacts.elements),
    (filesToDeleteOnExit, toText o.deleteOnExit.elements),
    (deleteWdOnExit, flagText c.deleteWorkingDirectoryOnExit)]

/-- The manifest of a configuration, which has one section. -/
def toManifest (c : BootstrapConfiguration) (o : c.Iterations) : Manifest :=
  ⟨[(configFileAttributesName, c.attributes o)]⟩

/-- The entries of an attribute: its fields but for the blank ones. -/
def readFields (value : List Char) : Finset (List Char) :=
  ((splitFields '\t' value).filter fun field => !(trim isTrimmed field).isEmpty).toFinset

/-- The configuration of a manifest; `none` where the source throws. -/
def fromManifest (m : Manifest) : Option BootstrapConfiguration := do
  let attributes ← m.getAttributes configFileAttributesName
  let bootstrap ← attributes.lookup bootstrapClassKey
  let files ← attributes.lookup classpathFiles
  let urls ← attributes.lookup classpathURLs
  let repos ← attributes.lookup mavenRepositoriesKey
  let mvns ← attributes.lookup mavenArtifactsKey
  let deleteOnExit ← attributes.lookup filesToDeleteOnExit
  let deleteWdOnExit ← attributes.lookup deleteWdOnExit
  pure
    { files := readFields files
      urls := readFields urls
      mavenRepositories := readFields repos
      mavenArtifacts := readFields mvns
      deleteOnExit := readFields deleteOnExit
      applicationBootstrapClassName := some bootstrap
      deleteWorkingDirectoryOnExit := flagOf deleteWdOnExit }

/-- What is written to the configuration file. -/
def write {B : Type} (format : ManifestFormat B) (c : BootstrapConfiguration)
    (o : c.Iterations) : B :=
  format.write (c.toManifest o)

/-- What is read from the configuration file; `none` where the source throws. -/
def read {B : Type} (format : ManifestFormat B) (stream : B) : Option BootstrapConfiguration :=
  (format.read stream).bind fromManifest

/-- An entry that is not blank and has no tab, no line terminator and no NUL. -/
def IsEntry (e : List Char) : Prop :=
  e.any (!isTrimmed ·) = true ∧ '\t' ∉ e ∧ IsValue e

/-- A configuration with a class name, all of whose entries are such. -/
structure IsAdmissible (c : BootstrapConfiguration) : Prop where
  className : ∃ name, c.applicationBootstrapClassName = some name ∧ IsValue name
  files : ∀ e ∈ c.files, IsEntry e
  urls : ∀ e ∈ c.urls, IsEntry e
  mavenRepositories : ∀ e ∈ c.mavenRepositories, IsEntry e
  mavenArtifacts : ∀ e ∈ c.mavenArtifacts, IsEntry e
  deleteOnExit : ∀ e ∈ c.deleteOnExit, IsEntry e

/-! ### One set -/

section Set

variable {s : Finset (List Char)} (i : Iteration s)

/-- **When a set is read back**: when nothing can be trimmed from the entry that is written first,
nor from the one that is written last. -/
theorem readFields_toText_iff (h : ∀ e ∈ s, IsEntry e) :
    readFields (toText i.elements) = s ↔ SurvivesTrim isTrimmed i.elements := by
  by_cases hne : i.elements = []
  · have hs : s = ∅ := by rw [← i.toFinset_eq, hne, List.toFinset_nil]
    rw [hne, hs]
    exact iff_of_true (by decide) (by simp [SurvivesTrim])
  have hentries : ∀ e ∈ i.elements, e.any (!isTrimmed ·) = true ∧ '\t' ∉ e := fun e he =>
    ⟨(h e (i.mem_elements.mp he)).1, (h e (i.mem_elements.mp he)).2.1⟩
  have hfilter : (trimEnds isTrimmed i.elements).filter
      (fun field => !(trim isTrimmed field).isEmpty) = trimEnds isTrimmed i.elements := by
    refine List.filter_eq_self.mpr fun f hf => ?_
    rw [isEmpty_trim]
    exact (forall_mem_trimEnds hentries hne f hf).1
  rw [readFields, toText, splitFields_trim_terminated (by decide) hentries hne, hfilter,
    ← toFinset_trimEnds_iff i.nodup, i.toFinset_eq]

/-- The text of a set can be the value of an attribute. -/
theorem isValue_toText (h : ∀ e ∈ s, IsEntry e) : IsValue (toText i.elements) := by
  refine List.all_eq_true.mpr fun c hc => ?_
  obtain ⟨e, he, hce⟩ := List.mem_flatMap.mp (trim_subset _ hc)
  obtain hce | hce := List.mem_append.mp hce
  · exact List.all_eq_true.mp (h e (i.mem_elements.mp he)).2.2 c hce
  · obtain rfl := List.mem_singleton.mp hce
    decide

end Set

/-! ### The configuration -/

section Configuration

variable {B : Type} {format : ManifestFormat B} {c : BootstrapConfiguration}

theorem isValue_flagText (flag : Bool) : IsValue (flagText flag) := by
  cases flag <;> decide

theorem flagOf_flagText (flag : Bool) : flagOf (flagText flag) = flag := by
  cases flag <;> decide

/-- The manifest of an admissible configuration is one that is read as it is written. -/
theorem wellFormed_toManifest (hc : c.IsAdmissible) (o : c.Iterations) :
    (c.toManifest o).WellFormed := by
  obtain ⟨name, hname, hvalue⟩ := hc.className
  have hkeys : (c.attributes o).map Prod.fst = [bootstrapClassKey, classpathFiles, classpathURLs,
    mavenRepositoriesKey, mavenArtifactsKey, filesToDeleteOnExit, deleteWdOnExit] := rfl
  have hnames : ∀ key ∈ (c.attributes o).map Prod.fst, IsAttributeName key := by
    rw [hkeys]
    decide
  have hvalues : ∀ a ∈ c.attributes o, IsValue a.2 := by
    simp only [attributes, hname, Option.getD_some, List.forall_mem_cons]
    exact ⟨hvalue, isValue_toText _ hc.files, isValue_toText _ hc.urls,
      isValue_toText _ hc.mavenRepositories, isValue_toText _ hc.mavenArtifacts,
      isValue_toText _ hc.deleteOnExit, isValue_flagText _, List.forall_mem_nil _⟩
  simp only [toManifest]
  constructor <;> simp only [List.map_cons, List.map_nil, List.forall_mem_singleton]
  · exact List.nodup_singleton _
  · rw [hkeys]
    decide
  · decide
  · exact fun a ha => hnames a.1 (List.mem_map_of_mem ha)
  · exact hvalues

/-- What is read when a configuration was written in the orders `o`. -/
def readBack (c : BootstrapConfiguration) (o : c.Iterations) : BootstrapConfiguration where
  files := readFields (toText o.files.elements)
  urls := readFields (toText o.urls.elements)
  mavenRepositories := readFields (toText o.mavenRepositories.elements)
  mavenArtifacts := readFields (toText o.mavenArtifacts.elements)
  deleteOnExit := readFields (toText o.deleteOnExit.elements)
  applicationBootstrapClassName := c.applicationBootstrapClassName
  deleteWorkingDirectoryOnExit := c.deleteWorkingDirectoryOnExit

theorem fromManifest_eq {m : Manifest} {name : List Char} (o : c.Iterations)
    (hname : c.applicationBootstrapClassName = some name)
    (hsection : (m.getAttributes configFileAttributesName).isSome = true)
    (h : ∀ key, m.getValue configFileAttributesName key = (c.attributes o).lookup key) :
    fromManifest m = some (c.readBack o) := by
  obtain ⟨attributes, hattributes⟩ := Option.isSome_iff_exists.mp hsection
  have hlookup (key : List Char) : attributes.lookup key = (c.attributes o).lookup key := by
    rw [← h key, Manifest.getValue, hattributes, Option.bind_some]
  have hclass : (c.attributes o).lookup bootstrapClassKey = some name := by
    rw [BootstrapConfiguration.attributes, hname]
    rfl
  have hfiles : (c.attributes o).lookup classpathFiles = some (toText o.files.elements) := rfl
  have hurls : (c.attributes o).lookup classpathURLs = some (toText o.urls.elements) := rfl
  have hrepos : (c.attributes o).lookup mavenRepositoriesKey =
    some (toText o.mavenRepositories.elements) := rfl
  have hmvns : (c.attributes o).lookup mavenArtifactsKey =
    some (toText o.mavenArtifacts.elements) := rfl
  have hdelete : (c.attributes o).lookup filesToDeleteOnExit =
    some (toText o.deleteOnExit.elements) := rfl
  have hflag : (c.attributes o).lookup deleteWdOnExit =
    some (flagText c.deleteWorkingDirectoryOnExit) := rfl
  simp only [fromManifest, hattributes, Option.bind_eq_bind, Option.bind_some, hlookup, hclass,
    hfiles, hurls, hrepos, hmvns, hdelete, hflag, Option.pure_def, flagOf_flagText]
  rw [readBack, hname]

/-- Whatever the format, only the five sets can come back different. -/
theorem read_write (hformat : format.RoundTrips) (hc : c.IsAdmissible) (o : c.Iterations) :
    read format (write format c o) = some (c.readBack o) := by
  obtain ⟨name, hname, -⟩ := hc.className
  obtain ⟨m, hread, hsome, hvalue⟩ := hformat _ (wellFormed_toManifest hc o)
  rw [read, write, hread, Option.bind_some]
  exact fromManifest_eq o hname (hsome _) fun key => hvalue _ key

/-- **When a configuration is read back**: when, of each of its sets, nothing can be trimmed from
the beginning of the entry that is written first, nor from the end of the one written last. -/
theorem read_write_iff (hformat : format.RoundTrips) (hc : c.IsAdmissible) (o : c.Iterations) :
    read format (write format c o) = some c ↔
      SurvivesTrim isTrimmed o.files.elements ∧ SurvivesTrim isTrimmed o.urls.elements ∧
        SurvivesTrim isTrimmed o.mavenRepositories.elements ∧
        SurvivesTrim isTrimmed o.mavenArtifacts.elements ∧
        SurvivesTrim isTrimmed o.deleteOnExit.elements := by
  rw [read_write hformat hc, Option.some.injEq, BootstrapConfiguration.ext_iff,
    ← readFields_toText_iff o.files hc.files, ← readFields_toText_iff o.urls hc.urls,
    ← readFields_toText_iff o.mavenRepositories hc.mavenRepositories,
    ← readFields_toText_iff o.mavenArtifacts hc.mavenArtifacts,
    ← readFields_toText_iff o.deleteOnExit hc.deleteOnExit]
  simp only [readBack, and_true]

/-- The configuration of a job worker: two files, the second of which is `last`, and one
artifact. -/
def workerConfiguration (last : List Char) : BootstrapConfiguration where
  files := ["/var/lib/my jobs.jar".toList, last].toFinset
  urls := ∅
  mavenRepositories := ∅
  mavenArtifacts := ["uk.ac.standrews.cs.shabdiz:job:1.0".toList].toFinset
  deleteOnExit := ∅
  applicationBootstrapClassName := some "WorkerMain".toList
  deleteWorkingDirectoryOnExit := true

/-- Its files in the order in which they are given. -/
def workerIterations (last : List Char) (h : ["/var/lib/my jobs.jar".toList, last].Nodup) :
    (workerConfiguration last).Iterations where
  files := ⟨_, h, rfl⟩
  urls := ⟨[], List.nodup_nil, rfl⟩
  mavenRepositories := ⟨[], List.nodup_nil, rfl⟩
  mavenArtifacts := ⟨_, List.nodup_singleton _, rfl⟩
  deleteOnExit := ⟨[], List.nodup_nil, rfl⟩

theorem isAdmissible_workerConfiguration {last : List Char} (h : IsEntry last) :
    (workerConfiguration last).IsAdmissible where
  className := ⟨_, rfl, by decide⟩
  files := by
    intro e he
    obtain rfl | he := List.mem_cons.mp (List.mem_toFinset.mp he)
    · exact ⟨by decide, by decide, by decide⟩
    · rw [List.mem_singleton.mp he]
      exact h
  urls := fun _ he => absurd he (Finset.notMem_empty _)
  mavenRepositories := fun _ he => absurd he (Finset.notMem_empty _)
  mavenArtifacts := by
    intro e he
    rw [List.mem_singleton.mp (List.mem_toFinset.mp he)]
    exact ⟨by decide, by decide, by decide⟩
  deleteOnExit := fun _ he => absurd he (Finset.notMem_empty _)

/-- Blanks inside the paths are kept. -/
theorem read_write_workerConfiguration :
    read manifestFile (write manifestFile (workerConfiguration "/tmp/a b.jar".toList)
      (workerIterations _ (by decide))) = some (workerConfiguration "/tmp/a b.jar".toList) :=
  (read_write_iff roundTrips_manifestFile
    (isAdmissible_workerConfiguration ⟨by decide, by decide, by decide⟩)
    (workerIterations _ (by decide))).mpr (by decide)

/-- The same job worker with one file, so that no order plays a part. -/
def oneFileConfiguration (file : List Char) : BootstrapConfiguration :=
  { workerConfiguration file with files := [file].toFinset }

/-- The only way to iterate over the sets. -/
def oneFileIterations (file : List Char) : (oneFileConfiguration file).Iterations where
  files := ⟨_, List.nodup_singleton _, rfl⟩
  urls := ⟨[], List.nodup_nil, rfl⟩
  mavenRepositories := ⟨[], List.nodup_nil, rfl⟩
  mavenArtifacts := ⟨_, List.nodup_singleton _, rfl⟩
  deleteOnExit := ⟨[], List.nodup_nil, rfl⟩

theorem isAdmissible_oneFileConfiguration {file : List Char} (h : IsEntry file) :
    (oneFileConfiguration file).IsAdmissible where
  className := ⟨_, rfl, by decide⟩
  files := by
    intro e he
    rw [List.mem_singleton.mp (List.mem_toFinset.mp he)]
    exact h
  urls := fun _ he => absurd he (Finset.notMem_empty _)
  mavenRepositories := fun _ he => absurd he (Finset.notMem_empty _)
  mavenArtifacts := (isAdmissible_workerConfiguration h).mavenArtifacts
  deleteOnExit := fun _ he => absurd he (Finset.notMem_empty _)

/-- A path that ends with a blank loses it. -/
theorem not_read_write_workerConfiguration :
    ¬ ∀ (c : BootstrapConfiguration) (o : c.Iterations), c.IsAdmissible →
      read manifestFile (write manifestFile c o) = some c := by
  intro h
  have hc : (oneFileConfiguration "/tmp/a ".toList).IsAdmissible :=
    isAdmissible_oneFileConfiguration ⟨by decide, by decide, by decide⟩
  have hread := h _ (oneFileIterations _) hc
  rw [read_write roundTrips_manifestFile hc, Option.some.injEq] at hread
  exact absurd (congrArg BootstrapConfiguration.files hread) (by decide)

end Configuration

end BootstrapConfiguration

end Shabdiz
