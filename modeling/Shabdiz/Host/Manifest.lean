import Shabdiz.Text.Fields

/-!
# Manifests

A manifest is a class of the Java library: named sections, each with attributes. What the
repository relies on is that a manifest is read as it was written, if its names and values are
proper ones. Its format is a parameter, with that as a hypothesis; `manifestFile` is the format of
a manifest file, but for the lines that are longer than 72 bytes, which a manifest file continues
on the next line.

## Main definitions

* `Manifest`, `Manifest.WellFormed` — manifests, and those with proper names and values
* `ManifestFormat`, `ManifestFormat.RoundTrips` — formats, and what is relied on
* `manifestFile` — the format of a manifest file

## Main results

* `roundTrips_manifestFile` — a manifest file is read as it was written
-/

namespace Shabdiz

/-- A manifest: its named sections, each with its attributes. -/
structure Manifest where
  entries : List (List Char × List (List Char × List Char))
deriving DecidableEq

/-- The section of this name, if the manifest has one. -/
def Manifest.getAttributes (m : Manifest) (name : List Char) :
    Option (List (List Char × List Char)) :=
  m.entries.lookup name

/-- The value of an attribute of a section. -/
def Manifest.getValue (m : Manifest) (name key : List Char) : Option (List Char) :=
  (m.getAttributes name).bind fun attributes => attributes.lookup key

/-- Whether a text can be the name of an attribute. -/
def IsAttributeName (key : List Char) : Prop :=
  key ≠ [] ∧ key.length ≤ 70 ∧ (key.all fun c => c.isAlphanum || c = '-' || c = '_') = true

/-- Whether a text can be the value of an attribute: it has no line terminator and no NUL. -/
def IsValue (value : List Char) : Prop :=
  (value.all fun c => c ≠ '\r' && c ≠ '\n' && c ≠ '\u0000') = true

instance (key : List Char) : Decidable (IsAttributeName key) :=
  inferInstanceAs (Decidable (_ ∧ _))

instance (value : List Char) : Decidable (IsValue value) := inferInstanceAs (Decidable (_ = true))

/-- Names of sections and attributes occur once, and attributes have proper names and values. -/
structure Manifest.WellFormed (m : Manifest) : Prop where
  nodup : (m.entries.map Prod.fst).Nodup
  nodup_attributes : ∀ e ∈ m.entries, (e.2.map Prod.fst).Nodup
  isValue_name : ∀ e ∈ m.entries, IsValue e.1
  isAttributeName : ∀ e ∈ m.entries, ∀ a ∈ e.2, IsAttributeName a.1
  isValue : ∀ e ∈ m.entries, ∀ a ∈ e.2, IsValue a.2

/-- How manifests are written to a stream and read from one. -/
structure ManifestFormat (B : Type) where
  write : Manifest → B
  read : B → Option Manifest

/-- A manifest that is read has the sections and the attributes of the one that was written. Their
order may be another. -/
def ManifestFormat.RoundTrips {B : Type} (format : ManifestFormat B) : Prop :=
  ∀ m, m.WellFormed → ∃ m', format.read (format.write m) = some m' ∧
    (∀ name, (m'.getAttributes name).isSome = (m.getAttributes name).isSome) ∧
    ∀ name key, m'.getValue name key = m.getValue name key

/-! ### Manifest files -/

/-- What the first line of a section begins with. -/
def nameHeader : List Char := "Name: ".toList

/-- The line of an attribute. -/
def attributeLine (a : List Char × List Char) : List Char := a.1 ++ ':' :: ' ' :: a.2

/-- The lines of a section. -/
def sectionLines (e : List Char × List (List Char × List Char)) : List (List Char) :=
  (nameHeader ++ e.1) :: e.2.map attributeLine

/-- The lines of a manifest: of the main section, which is empty, and of the others, with a blank
line after each. -/
def manifestLines (m : Manifest) : List (List Char) :=
  terminated [] ([] :: m.entries.map sectionLines)

/-- The name and the value of a line: a colon and a space stand between them. -/
def readAttribute (line : List Char) : List Char × List Char :=
  (line.takeWhile (· ≠ ':'), (line.dropWhile (· ≠ ':')).drop 2)

/-- A section must begin with its name. -/
def readSection : List (List Char) → Option (List Char × List (List Char × List Char))
  | [] => none
  | header :: attributes =>
    if nameHeader <+: header then
      some (header.drop nameHeader.length, attributes.map readAttribute)
    else none

/-- The format of a manifest file: lines that end with `\r\n`. -/
def manifestFile : ManifestFormat (List Char) where
  write m := terminated '\n' ((manifestLines m).map (· ++ ['\r']))
  read text :=
    let lines := ((text.splitOn '\n').dropLast).map List.dropLast
    (((lines.splitOn []).filter (· ≠ [])).mapM readSection).map Manifest.mk

/-- An attribute is read back, since its name has no colon. -/
theorem readAttribute_attributeLine {a : List Char × List Char} (h : IsAttributeName a.1) :
    readAttribute (attributeLine a) = a := by
  have hname : ∀ c ∈ a.1, decide (c ≠ ':') = true := by
    intro c hc
    have hc := List.all_eq_true.mp h.2.2 c hc
    rw [decide_eq_true_eq]
    rintro rfl
    exact absurd hc (by decide)
  rw [readAttribute, attributeLine, List.takeWhile_append_of_pos hname,
    List.dropWhile_append_of_pos hname]
  simp

theorem readSection_sectionLines {e : List Char × List (List Char × List Char)}
    (h : ∀ a ∈ e.2, IsAttributeName a.1) : readSection (sectionLines e) = some e := by
  have hread : (e.2.map attributeLine).map readAttribute = e.2 := by
    rw [List.map_map]
    exact (List.map_congr_left fun a ha => readAttribute_attributeLine (h a ha)).trans
      (List.map_id _)
  rw [sectionLines, readSection, if_pos (List.prefix_append ..), List.drop_left, hread]

theorem mapM_readSection {entries : List (List Char × List (List Char × List Char))}
    (h : ∀ e ∈ entries, ∀ a ∈ e.2, IsAttributeName a.1) :
    (entries.map sectionLines).mapM readSection = some entries := by
  induction entries with
  | nil => rfl
  | cons e entries ih =>
    obtain ⟨he, h⟩ := List.forall_mem_cons.mp h
    rw [List.map_cons, List.mapM_cons, readSection_sectionLines he, ih h]
    rfl

theorem ne_nil_of_mem_sectionLines {e : List Char × List (List Char × List Char)}
    {line : List Char} (h : line ∈ sectionLines e) : line ≠ [] := by
  obtain rfl | h := List.mem_cons.mp h
  · exact List.append_ne_nil_of_left_ne_nil (by decide) _
  · obtain ⟨a, -, rfl⟩ := List.mem_map.mp h
    exact List.append_ne_nil_of_right_ne_nil _ (List.cons_ne_nil _ _)

/-- The sections are what the blank lines of a manifest separate. -/
theorem splitOn_manifestLines (m : Manifest) :
    ((manifestLines m).splitOn []).filter (· ≠ []) = m.entries.map sectionLines := by
  have hblank : ∀ f ∈ [] :: m.entries.map sectionLines, [] ∉ f := by
    intro f hf
    obtain rfl | hf := List.mem_cons.mp hf
    · exact List.not_mem_nil
    · obtain ⟨e, -, rfl⟩ := List.mem_map.mp hf
      exact fun hmem => ne_nil_of_mem_sectionLines hmem rfl
  have hsections : ∀ f ∈ m.entries.map sectionLines, decide (f ≠ []) = true := by
    intro f hf
    obtain ⟨e, -, rfl⟩ := List.mem_map.mp hf
    exact decide_eq_true (List.cons_ne_nil _ _)
  rw [manifestLines, splitOn_terminated hblank, List.cons_append, List.filter_cons_of_neg (by simp),
    List.filter_append, List.filter_eq_self.mpr hsections]
  simp

/-- No line of a manifest has a line terminator in it. -/
theorem notMem_of_mem_manifestLines {m : Manifest} (h : m.WellFormed) {line : List Char}
    (hline : line ∈ manifestLines m) : '\n' ∉ line := by
  have hvalue {value : List Char} (hvalue : IsValue value) : '\n' ∉ value := fun hmem =>
    absurd (List.all_eq_true.mp hvalue _ hmem) (by decide)
  have hname {key : List Char} (hkey : IsAttributeName key) : '\n' ∉ key := fun hmem =>
    absurd (List.all_eq_true.mp hkey.2.2 _ hmem) (by decide)
  obtain ⟨f, hf, hline⟩ := List.mem_flatMap.mp hline
  obtain hline | hline := List.mem_append.mp hline
  · obtain rfl | hf := List.mem_cons.mp hf
    · cases hline
    obtain ⟨e, he, rfl⟩ := List.mem_map.mp hf
    obtain rfl | hline := List.mem_cons.mp hline
    · rw [List.mem_append, not_or]
      exact ⟨by decide, hvalue (h.isValue_name e he)⟩
    · obtain ⟨a, ha, rfl⟩ := List.mem_map.mp hline
      have hkey := hname (h.isAttributeName e he a ha)
      have htext := hvalue (h.isValue e he a ha)
      simp [attributeLine, hkey, htext]
  · rw [List.mem_singleton.mp hline]
    exact List.not_mem_nil

/-- **A manifest file is read as it was written.** -/
theorem roundTrips_manifestFile : manifestFile.RoundTrips := by
  intro m h
  refine ⟨m, ?_, fun _ => rfl, fun _ _ => rfl⟩
  have hlines : ∀ line ∈ (manifestLines m).map (· ++ ['\r']), '\n' ∉ line := by
    intro line hline
    obtain ⟨line, hmem, rfl⟩ := List.mem_map.mp hline
    have := notMem_of_mem_manifestLines h hmem
    simp [this]
  have hread : ((manifestLines m).map (· ++ ['\r'])).map List.dropLast = manifestLines m := by
    rw [List.map_map]
    exact List.map_id'' (fun line => List.dropLast_concat) _
  simp only [manifestFile]
  rw [splitOn_terminated hlines, List.dropLast_concat, hread, splitOn_manifestLines,
    mapM_readSection h.isAttributeName]
  rfl

end Shabdiz
