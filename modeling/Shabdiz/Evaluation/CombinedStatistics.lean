import Mathlib.Data.List.Perm.Basic
import Shabdiz.Evaluation.AnalyticsUtil

/-!
# Combined and aggregated statistics

The samples in the columns of several CSV files are collected in two ways.
`getCombinedCsvStatistics` reads one row of each file in turn and makes a point of these rows; a
file that has no more rows is closed and removed from the readers that the loop goes through, and a
round in which no row was read makes no point. `getAggregatedCstStatistic` reads one file after the
other.

With processors without state both see the same samples. Here a processor is what it does to a cell,
so that any processor may be passed.

## Main definitions

* `CsvProcessor`, `readRow` — processors and what a reader makes of a row
* `getCombinedCsvStatistics`, `aggregateSamples` — the two ways
* `valueOf` — the value in a column of a row
* `CombinesSamples` — a point for every row of the longest file, with a sample of every file that
  has that row

## Main results

* `getAggregatedCstStatistic_eq` — `aggregateSamples` for the cell processors of the analysers
* `readPoint_eq`, `combineReaders_eq` — what a round and what all rounds make
* `perm_samplesAt` — row by row or file by file
* `exists_combinesSamples` — the points, and that their samples are those of the aggregate
-/

namespace Shabdiz

variable {F D : Type}

/-! ### The code -/

/-- The array of statistics of a point, as the samples that were added; `none` is `null`. -/
abbrev PointStatistics (D : Type) := List (Option (List (Number D)))

/-- What a cell processor makes of a cell. -/
abbrev CsvProcessor (D : Type) := Cell → Analysis (Number D)

/-- What `CsvListReader.read` makes of a row: there must be as many processors as cells. -/
def readRow (processors : List (CsvProcessor D)) (row : Except AnalysisError (List Cell)) :
    Analysis (List (Number D)) := do
  let row ← .ofExcept row
  if row.length ≠ processors.length then throw .superCsv
  else (processors.zip row).mapM fun (processor, value) => processor value

/-- `row.get`. -/
def sampleIn (values : List (Number D)) (columnIndex : ℕ) : Except AnalysisError (Number D) :=
  match values[columnIndex]? with
  | some sample => .ok sample
  | none => .error .indexOutOfBounds

/-- The loop over the column indices. -/
def addSamples (values : List (Number D)) : List ℕ → PointStatistics D →
    Except AnalysisError (PointStatistics D)
  | index :: indices, statistics :: combined => do
    let sample ← sampleIn values index
    let combined ← addSamples values indices combined
    pure (some (statistics.getD [] ++ [sample]) :: combined)
  | _, combined => pure combined

/-- A reader is the rows that are left. -/
abbrev CsvListReader := List (Except AnalysisError (List Cell))

/-- The loop over the readers: what is read of each that is not exhausted. -/
def readPoint (processors : List (CsvProcessor D)) (columnIndices : List ℕ) :
    List CsvListReader → PointStatistics D → Analysis (PointStatistics D)
  | [], combined => pure combined
  | [] :: readers, combined => readPoint processors columnIndices readers combined
  | (row :: _) :: readers, combined => do
    let values ← readRow processors row
    let combined ← .ofExcept (addSamples values columnIndices combined)
    readPoint processors columnIndices readers combined

/-- The readers after that loop: those that were exhausted are removed. -/
def advance (readers : List CsvListReader) : List CsvListReader := readers.filterMap List.tail?

/-- A round takes a row of each reader that is left. -/
theorem length_advance (readers : List CsvListReader) :
    (advance readers).flatten.length + (advance readers).length = readers.flatten.length := by
  induction readers with
  | nil => rfl
  | cons reader readers ih =>
    cases reader with
    | nil => exact ih
    | cons row rows =>
      have hcons : advance ((row :: rows) :: readers) = rows :: advance readers := rfl
      rw [hcons, List.flatten_cons, List.flatten_cons, List.length_append, List.length_append,
        List.length_cons, List.length_cons]
      omega

/-- The loop while there are readers. -/
def combineReaders (processors : List (CsvProcessor D)) (columnIndices : List ℕ)
    (readers : List CsvListReader) (points : List (PointStatistics D)) :
    Analysis (List (PointStatistics D)) :=
  if readers.isEmpty then pure points
  else do
    let combined ← readPoint processors columnIndices readers
      (List.replicate columnIndices.length none)
    match combined[0]? with
    | none => throw .indexOutOfBounds
    | some none => combineReaders processors columnIndices (advance readers) points
    | some (some _) =>
      combineReaders processors columnIndices (advance readers) (points ++ [combined])
termination_by readers.flatten.length + readers.length
decreasing_by
  all_goals
    have hpos : 0 < readers.length :=
      List.length_pos_iff.mpr (by simpa using ‹¬ readers.isEmpty = true›)
    have := length_advance readers
    omega

/-- The statistics of the rows of all files, row by row. -/
def getCombinedCsvStatistics (processors : List (CsvProcessor D)) (files : ResultFiles F)
    (csvFiles : List F) (columnIndices : List ℕ) : Analysis (List (PointStatistics D)) :=
  combineReaders processors columnIndices (csvFiles.map files.rows) []

/-- `getAggregatedCstStatistic`. -/
def aggregateSamples (processors : List (CsvProcessor D)) (files : ResultFiles F)
    (csvFiles : List F) (columnIndex : ℕ) : Analysis (List (Number D)) := do
  let samples ← csvFiles.mapM fun csv => (files.rows csv).mapM fun row => do
    let values ← readRow processors row
    .ofExcept (sampleIn values columnIndex)
  pure samples.flatten

/-- **The cell processors of the analysers** are processors. -/
theorem getAggregatedCstStatistic_eq [Mul D] [Div D] [NatCast D] (lib : AnalysisLibrary D)
    (files : ResultFiles F) (csvFiles : List F) (processors : List CellProcessor)
    (columnIndex : ℕ) :
    getAggregatedCstStatistic lib files csvFiles processors columnIndex =
      aggregateSamples (processors.map (CellProcessor.execute lib)) files csvFiles columnIndex := by
  have hrow (row : List Cell) : executeCellProcessors lib row processors =
      readRow (processors.map (CellProcessor.execute lib)) (.ok row) := by
    rw [executeCellProcessors, readRow, Analysis.ofExcept_ok, pure_bind, List.length_map,
      List.zip_map_left, List.mapM_map]
    rfl
  have hsample : readSample lib processors columnIndex = fun row =>
      readRow (processors.map (CellProcessor.execute lib)) row >>= fun values =>
        .ofExcept (sampleIn values columnIndex) := by
    funext row
    cases row with
    | error e => rfl
    | ok row =>
      rw [readSample, Analysis.ofExcept_ok, pure_bind, hrow]
      refine bind_congr fun values => ?_
      rw [sampleIn]
      cases values[columnIndex]? <;> rfl
  rw [getAggregatedCstStatistic, hsample]
  rfl

/-! ### Processors without state -/

/-- A processor that is a function. -/
def stateless (f : Cell → Except AnalysisError (Number D)) : CsvProcessor D := fun value =>
  .ofExcept (f value)

/-- What is read of a row by processors without state. -/
def rowValues (processors : List (Cell → Except AnalysisError (Number D)))
    (row : Except AnalysisError (List Cell)) : Except AnalysisError (List (Number D)) := do
  let row ← row
  if row.length ≠ processors.length then throw .superCsv
  else (processors.zip row).mapM fun (processor, value) => processor value

/-- The value in a column of a row, if there is one. -/
def valueOf (processors : List (Cell → Except AnalysisError (Number D))) (columnIndex : ℕ)
    (row : Except AnalysisError (List Cell)) : Option (Number D) :=
  (rowValues processors row).toOption.bind (·[columnIndex]?)

/-- There is a point for every row of the longest file, and it has in every column the value of that
row in every file that has the row, and no other sample. -/
structure CombinesSamples (processors : List (Cell → Except AnalysisError (Number D)))
    (files : ResultFiles F) (csvFiles : List F) (columnIndices : List ℕ)
    (points : List (PointStatistics D)) : Prop where
  length : ∀ i, i < points.length ↔ ∃ csv ∈ csvFiles, i < (files.rows csv).length
  columns : ∀ point ∈ points, point.length = columnIndices.length
  samples : ∀ (i : ℕ) (point : PointStatistics D) (k index : ℕ), points[i]? = some point →
    columnIndices[k]? = some index → ∃ statistics : List (Number D),
      point[k]? = some (some statistics) ∧ statistics.map some =
        (csvFiles.filterMap fun csv => (files.rows csv)[i]?).map (valueOf processors index)

section Stateless

variable {processors : List (Cell → Except AnalysisError (Number D))}
  {row : Except AnalysisError (List Cell)} {readers : List CsvListReader} {columnIndices : List ℕ}
  {values : List (Number D)} {combined : PointStatistics D} {index : ℕ}

theorem Analysis.ofExcept_bind {α β : Type} (x : Except AnalysisError α)
    (f : α → Except AnalysisError β) :
    (ofExcept x >>= fun a => ofExcept (f a)) = Analysis.ofExcept (x >>= f) := by
  cases x <;> rfl

theorem Analysis.mapM_ofExcept {α β : Type} (f : α → Except AnalysisError β) (l : List α) :
    (l.mapM fun a => Analysis.ofExcept (f a)) = Analysis.ofExcept (l.mapM f) := by
  induction l with
  | nil => rfl
  | cons a l ih =>
    rw [List.mapM_cons, List.mapM_cons, ih, ← ofExcept_bind]
    refine bind_congr fun b => ?_
    rw [← ofExcept_bind]
    rfl

/-- A row is read by processors without state as it is in any state. -/
theorem readRow_stateless :
    readRow (processors.map stateless) row = .ofExcept (rowValues processors row) := by
  rw [readRow, rowValues, ← Analysis.ofExcept_bind]
  refine bind_congr fun row => ?_
  rw [List.length_map]
  split
  · rfl
  · rw [List.zip_map_left, List.mapM_map, ← Analysis.mapM_ofExcept]
    rfl

/-- A row has a value in every column that is asked for. -/
def RowRead (processors : List (Cell → Except AnalysisError (Number D))) (columnIndices : List ℕ)
    (row : Except AnalysisError (List Cell)) : Prop :=
  ∀ index ∈ columnIndices, (valueOf processors index row).isSome = true

theorem valueOf_of_rowValues (h : rowValues processors row = .ok values) :
    valueOf processors index row = values[index]? := by
  rw [valueOf, h]
  rfl

theorem exists_rowValues (hne : columnIndices ≠ []) (h : RowRead processors columnIndices row) :
    ∃ values, rowValues processors row = .ok values ∧
      ∀ index ∈ columnIndices, (values[index]?).isSome = true := by
  cases hvalues : rowValues processors row with
  | error e =>
    obtain ⟨index, hindex⟩ := List.exists_mem_of_ne_nil columnIndices hne
    have hsome := h index hindex
    rw [valueOf, hvalues] at hsome
    exact Bool.noConfusion hsome
  | ok values =>
    refine ⟨values, rfl, fun index hindex => ?_⟩
    rw [← valueOf_of_rowValues hvalues]
    exact h index hindex

/-! ### One round -/

/-- The statistics after samples were added. -/
def extend (statistics : Option (List (Number D))) : List (Number D) → Option (List (Number D))
  | [] => statistics
  | samples => some (statistics.getD [] ++ samples)

theorem extend_extend (statistics : Option (List (Number D))) (xs ys : List (Number D)) :
    extend (extend statistics xs) ys = extend statistics (xs ++ ys) := by
  cases xs with
  | nil => rfl
  | cons x xs =>
    cases ys with
    | nil => rw [List.append_nil]; rfl
    | cons y ys => simp [extend]

/-- The values that are read in a column in the round `i`. -/
def samplesAt (processors : List (Cell → Except AnalysisError (Number D)))
    (readers : List CsvListReader) (i index : ℕ) : List (Number D) :=
  readers.filterMap fun reader => reader[i]?.bind (valueOf processors index)

theorem zipWith_eq_self {α β : Type} {l : List α} {m : List β} (h : m.length = l.length) :
    l.zipWith (fun _ x => x) m = m := by
  induction l generalizing m with
  | nil => exact (List.length_eq_zero_iff.mp h).symm
  | cons a l ih =>
    cases m with
    | nil => rfl
    | cons x m => rw [List.zipWith_cons_cons, ih (Nat.succ.inj h)]

theorem zipWith_zipWith_right {α β : Type} (f g : α → β → β) (l : List α) (m : List β) :
    l.zipWith f (l.zipWith g m) = l.zipWith (fun a x => f a (g a x)) m := by
  induction l generalizing m with
  | nil => rfl
  | cons a l ih =>
    cases m with
    | nil => rfl
    | cons x m => rw [List.zipWith_cons_cons, List.zipWith_cons_cons, List.zipWith_cons_cons, ih]

theorem addSamples_eq (hvalues : ∀ index ∈ columnIndices, (values[index]?).isSome = true)
    (hlength : combined.length = columnIndices.length) :
    addSamples values columnIndices combined = .ok (columnIndices.zipWith
      (fun index statistics => extend statistics (values[index]?).toList) combined) := by
  induction columnIndices generalizing combined with
  | nil =>
    obtain rfl := List.length_eq_zero_iff.mp hlength
    rfl
  | cons index indices ih =>
    cases combined with
    | nil => exact absurd hlength (by simp)
    | cons statistics combined =>
      obtain ⟨hindex, hvalues⟩ := List.forall_mem_cons.mp hvalues
      obtain ⟨sample, hsample⟩ := Option.isSome_iff_exists.mp hindex
      rw [addSamples, sampleIn, hsample, ih hvalues (Nat.succ.inj hlength), List.zipWith_cons_cons,
        hsample]
      rfl

/-- **What a round makes**: the values that are read are added in every column. -/
theorem readPoint_eq (hne : columnIndices ≠ [])
    (hread : ∀ reader ∈ readers, ∀ row ∈ reader, RowRead processors columnIndices row)
    (hlength : combined.length = columnIndices.length) :
    readPoint (processors.map stateless) columnIndices readers combined =
      pure (columnIndices.zipWith
        (fun index statistics => extend statistics (samplesAt processors readers 0 index))
        combined) := by
  induction readers generalizing combined with
  | nil =>
    rw [readPoint]
    exact congrArg pure (zipWith_eq_self hlength).symm
  | cons reader readers ih =>
    obtain ⟨hreader, hrest⟩ := List.forall_mem_cons.mp hread
    cases reader with
    | nil =>
      rw [readPoint]
      exact ih hrest hlength
    | cons row rows =>
      obtain ⟨values, hvalues, hcolumns⟩ := exists_rowValues hne (hreader row List.mem_cons_self)
      have hlength' : (columnIndices.zipWith (fun index statistics =>
          extend statistics (values[index]?).toList) combined).length = columnIndices.length := by
        rw [List.length_zipWith, hlength, Nat.min_self]
      rw [readPoint, readRow_stateless, hvalues, Analysis.ofExcept_ok, pure_bind,
        addSamples_eq hcolumns hlength, Analysis.ofExcept_ok, pure_bind, ih hrest hlength',
        zipWith_zipWith_right]
      refine congrArg pure (congrArg (List.zipWith · columnIndices combined) ?_)
      funext index statistics
      rw [extend_extend, ← valueOf_of_rowValues hvalues]
      refine congrArg (extend statistics) ?_
      rw [samplesAt, samplesAt, List.filterMap_cons]
      cases hvalue : valueOf processors index row with
      | none => simp [hvalue]
      | some sample => simp [hvalue]

/-! ### All rounds -/

/-- The point of the round `i`. -/
def pointAt (processors : List (Cell → Except AnalysisError (Number D))) (columnIndices : List ℕ)
    (readers : List CsvListReader) (i : ℕ) : PointStatistics D :=
  columnIndices.map fun index => some (samplesAt processors readers i index)

theorem samplesAt_advance (i : ℕ) :
    samplesAt processors (advance readers) i index =
      samplesAt processors readers (i + 1) index := by
  rw [samplesAt, samplesAt, advance, List.filterMap_filterMap]
  refine congrArg (List.filterMap · readers) (funext fun reader => ?_)
  cases reader <;> rfl

theorem mem_advance {reader : CsvListReader} (h : reader ∈ advance readers) :
    ∃ row, row :: reader ∈ readers := by
  obtain ⟨reader', hmem, htail⟩ := List.mem_filterMap.mp h
  cases reader' with
  | nil => exact absurd htail (by simp)
  | cons row rows =>
    obtain rfl := Option.some.inj htail
    exact ⟨row, hmem⟩

theorem exists_mem_advance_iff {i : ℕ} :
    (∃ reader ∈ advance readers, i < reader.length) ↔
      ∃ reader ∈ readers, i + 1 < reader.length := by
  constructor
  · rintro ⟨rows, hrows, hlt⟩
    obtain ⟨row, hmem⟩ := mem_advance hrows
    exact ⟨row :: rows, hmem, Nat.succ_lt_succ hlt⟩
  · rintro ⟨reader, hreader, hlt⟩
    obtain ⟨row, rows, rfl⟩ := List.exists_cons_of_length_pos (Nat.zero_lt_of_lt hlt)
    exact ⟨rows, List.mem_filterMap.mpr ⟨_, hreader, rfl⟩, Nat.lt_of_succ_lt_succ hlt⟩

theorem pointAt_advance (i : ℕ) :
    pointAt processors columnIndices (advance readers) i =
      pointAt processors columnIndices readers (i + 1) := by
  rw [pointAt, pointAt]
  exact List.map_congr_left fun index _ => by rw [samplesAt_advance]

theorem zipWith_replicate {α β γ : Type} (f : α → β → γ) (l : List α) (b : β) :
    l.zipWith f (List.replicate l.length b) = l.map fun a => f a b := by
  induction l with
  | nil => rfl
  | cons a l ih =>
    rw [List.length_cons, List.replicate_succ, List.zipWith_cons_cons, ih, List.map_cons]

/-- A reader that has a row gives a sample. -/
theorem samplesAt_ne_nil (hread : ∀ reader ∈ readers, ∀ row ∈ reader,
      RowRead processors columnIndices row) (hindex : index ∈ columnIndices)
    (hrow : ∃ reader ∈ readers, 0 < reader.length) :
    samplesAt processors readers 0 index ≠ [] := by
  obtain ⟨reader, hreader, hpos⟩ := hrow
  obtain ⟨row, rows, rfl⟩ := List.exists_cons_of_length_pos hpos
  obtain ⟨sample, hsample⟩ := Option.isSome_iff_exists.mp
    (hread _ hreader row List.mem_cons_self index hindex)
  exact List.ne_nil_of_mem (List.mem_filterMap.mpr ⟨row :: rows, hreader, hsample⟩)

theorem samplesAt_eq_nil (hrow : ∀ reader ∈ readers, reader = []) (i : ℕ) :
    samplesAt processors readers i index = [] := by
  refine List.filterMap_eq_nil_iff.mpr fun reader hreader => ?_
  rw [hrow reader hreader]
  rfl

theorem readPoint_replicate (hne : columnIndices ≠ [])
    (hread : ∀ reader ∈ readers, ∀ row ∈ reader, RowRead processors columnIndices row) :
    readPoint (processors.map stateless) columnIndices readers
        (List.replicate columnIndices.length none) =
      pure (columnIndices.map fun index => extend none (samplesAt processors readers 0 index)) := by
  rw [readPoint_eq hne hread List.length_replicate, zipWith_replicate]

/-- **What all rounds make**: a point for every row of the longest file. -/
theorem combineReaders_eq {n : ℕ} {points : List (PointStatistics D)} (hne : columnIndices ≠ [])
    (hread : ∀ reader ∈ readers, ∀ row ∈ reader, RowRead processors columnIndices row)
    (hn : ∀ i, i < n ↔ ∃ reader ∈ readers, i < reader.length) :
    combineReaders (processors.map stateless) columnIndices readers points =
      pure (points ++ (List.range n).map (pointAt processors columnIndices readers)) := by
  obtain ⟨index, indices, hindices⟩ := List.exists_cons_of_ne_nil hne
  have hempty (points : List (PointStatistics D)) :
      combineReaders (processors.map stateless) columnIndices [] points = pure points := by
    rw [combineReaders, if_pos List.isEmpty_nil]
  induction n generalizing readers points with
  | zero =>
    have hexhausted : ∀ reader ∈ readers, reader = [] := fun reader hreader =>
      List.length_eq_zero_iff.mp (Nat.eq_zero_of_not_pos fun hpos =>
        absurd ((hn 0).mpr ⟨reader, hreader, hpos⟩) (Nat.lt_irrefl 0))
    rw [List.range_zero, List.map_nil, List.append_nil]
    by_cases hreaders : readers = []
    · rw [hreaders, hempty]
    · -- the last round reads nothing and removes all readers
      have hadvance : advance readers = [] :=
        List.filterMap_eq_nil_iff.mpr fun reader hreader => by rw [hexhausted reader hreader]; rfl
      rw [combineReaders, if_neg (by simpa using hreaders), readPoint_replicate hne hread,
        pure_bind, hindices]
      simp only [List.map_cons, List.getElem?_cons_zero, samplesAt_eq_nil hexhausted, extend]
      rw [hadvance, ← hindices, hempty]
  | succ n ih =>
    obtain ⟨reader, hreader, -⟩ := (hn 0).mp (Nat.succ_pos n)
    have hpoint : (columnIndices.map fun index =>
        extend none (samplesAt processors readers 0 index)) =
          pointAt processors columnIndices readers 0 := by
      refine List.map_congr_left fun index hindex => ?_
      obtain ⟨sample, samples, hsamples⟩ :=
        List.exists_cons_of_ne_nil (samplesAt_ne_nil hread hindex ((hn 0).mp (Nat.succ_pos n)))
      rw [hsamples]
      rfl
    have hfirst : (pointAt processors columnIndices readers 0)[0]? =
        some (some (samplesAt processors readers 0 index)) := by
      rw [pointAt, hindices]
      rfl
    rw [combineReaders, if_neg (by simpa using List.ne_nil_of_mem hreader),
      readPoint_replicate hne hread, pure_bind, hpoint]
    simp only [hfirst]
    rw [ih ?_ ?_, List.range_succ_eq_map, List.map_cons, List.map_map, List.append_assoc]
    · rw [List.map_congr_left fun i _ => pointAt_advance i]
      rfl
    · intro reader hreader row hrow
      obtain ⟨first, hmem⟩ := mem_advance hreader
      exact hread _ hmem row (List.mem_cons_of_mem first hrow)
    · intro i
      rw [exists_mem_advance_iff, ← hn, Nat.add_lt_add_iff_right]

theorem exists_longest (readers : List CsvListReader) :
    ∃ n, ∀ i, i < n ↔ ∃ reader ∈ readers, i < reader.length := by
  induction readers with
  | nil => exact ⟨0, by simp⟩
  | cons reader readers ih =>
    obtain ⟨n, hn⟩ := ih
    refine ⟨max reader.length n, fun i => ?_⟩
    rw [lt_max_iff, hn]
    simp

/-! ### Row by row, or file by file -/

theorem flatMap_range_getElem? {α β : Type} (f : α → Option β) {l : List α} {n : ℕ}
    (h : l.length ≤ n) :
    (List.range n).flatMap (fun i => (l[i]?.bind f).toList) = l.filterMap f := by
  induction l generalizing n with
  | nil => simp
  | cons a l ih =>
    obtain ⟨m, rfl⟩ := Nat.exists_eq_add_one_of_ne_zero (Nat.ne_of_gt (Nat.lt_of_succ_le h |>.pos))
    rw [List.range_succ_eq_map, List.flatMap_cons, List.flatMap_map, List.filterMap_cons]
    simp only [List.getElem?_cons_zero, List.getElem?_cons_succ, Option.bind_some]
    rw [ih (Nat.le_of_succ_le_succ h)]
    cases f a <;> rfl

/-- **Row by row or file by file**, the samples in a column are the same. -/
theorem perm_samplesAt {n : ℕ} (h : ∀ reader ∈ readers, reader.length ≤ n) :
    ((List.range n).flatMap fun i => samplesAt processors readers i index).Perm
      (readers.flatMap (List.filterMap (valueOf processors index))) := by
  induction readers with
  | nil => simp [samplesAt]
  | cons reader readers ih =>
    obtain ⟨hreader, h⟩ := List.forall_mem_cons.mp h
    have hcons (i : ℕ) : samplesAt processors (reader :: readers) i index =
        (reader[i]?.bind (valueOf processors index)).toList ++
          samplesAt processors readers i index := by
      rw [samplesAt, samplesAt, List.filterMap_cons]
      cases reader[i]?.bind (valueOf processors index) <;> rfl
    simp only [hcons]
    rw [List.flatMap_cons, ← flatMap_range_getElem? _ hreader]
    exact (List.flatMap_append_perm (List.range n) _ _).symm.trans ((ih h).append_left _)

theorem mapM_eq_pure {α β : Type} {g : α → Analysis β} {f : α → β} {l : List α}
    (h : ∀ a ∈ l, g a = pure (f a)) : l.mapM g = pure (l.map f) := by
  induction l with
  | nil => rfl
  | cons a l ih =>
    obtain ⟨ha, h⟩ := List.forall_mem_cons.mp h
    rw [List.mapM_cons, ha, pure_bind, ih h, pure_bind, List.map_cons]

/-- What is collected of a file. -/
theorem mapM_sampleIn {rows : CsvListReader}
    (hread : ∀ row ∈ rows, (valueOf processors index row).isSome = true) :
    (rows.mapM fun row => do
      let values ← readRow (processors.map stateless) row
      Analysis.ofExcept (sampleIn values index)) =
        pure (rows.filterMap (valueOf processors index)) := by
  induction rows with
  | nil => rfl
  | cons row rows ih =>
    obtain ⟨hrow, hread⟩ := List.forall_mem_cons.mp hread
    obtain ⟨sample, hsample⟩ := Option.isSome_iff_exists.mp hrow
    obtain ⟨values, hvalues, -⟩ := exists_rowValues (List.cons_ne_nil index [])
      (List.forall_mem_singleton.mpr hrow)
    have hget : values[index]? = some sample := (valueOf_of_rowValues hvalues).symm.trans hsample
    rw [List.mapM_cons, ih hread, readRow_stateless, hvalues, Analysis.ofExcept_ok, pure_bind,
      sampleIn, hget, List.filterMap_cons, hsample]
    rfl

/-- What `getAggregatedCstStatistic` collects. -/
theorem aggregateSamples_eq {files : ResultFiles F} {csvFiles : List F}
    (hread : ∀ csv ∈ csvFiles, ∀ row ∈ files.rows csv,
      (valueOf processors index row).isSome = true) :
    aggregateSamples (processors.map stateless) files csvFiles index =
      pure ((csvFiles.map files.rows).flatMap (List.filterMap (valueOf processors index))) := by
  rw [aggregateSamples, mapM_eq_pure fun csv hcsv => mapM_sampleIn (hread csv hcsv), pure_bind,
    List.flatMap_map]
  rfl

theorem getElem?_pointAt {i k : ℕ} (hindex : columnIndices[k]? = some index) :
    (pointAt processors columnIndices readers i)[k]? =
      some (some (samplesAt processors readers i index)) := by
  rw [pointAt, List.getElem?_map, hindex, Option.map_some]

/-- The samples of a point are values of its row, one of each file that has it. -/
theorem map_samplesAt {files : ResultFiles F} {csvFiles : List F} {i : ℕ}
    (hread : ∀ csv ∈ csvFiles, ∀ row ∈ files.rows csv,
      (valueOf processors index row).isSome = true) :
    (samplesAt processors (csvFiles.map files.rows) i index).map some =
      (csvFiles.filterMap fun csv => (files.rows csv)[i]?).map (valueOf processors index) := by
  rw [samplesAt, List.filterMap_map]
  induction csvFiles with
  | nil => rfl
  | cons csv csvFiles ih =>
    obtain ⟨hcsv, hread⟩ := List.forall_mem_cons.mp hread
    rw [List.filterMap_cons, List.filterMap_cons]
    cases hrow : (files.rows csv)[i]? with
    | none => simpa [hrow] using ih hread
    | some row =>
      obtain ⟨sample, hsample⟩ := Option.isSome_iff_exists.mp
        (hcsv row (List.mem_of_getElem? hrow))
      simpa [hrow, hsample] using ih hread

end Stateless

/-- **Combined and aggregated statistics see the same samples**, if the processors have no state and
every row has the columns. -/
theorem exists_combinesSamples (processors : List (Cell → Except AnalysisError (Number D)))
    (files : ResultFiles F) (csvFiles : List F) (columnIndices : List ℕ) (s : Statics)
    (hcolumns : columnIndices ≠ [])
    (hread : ∀ csv ∈ csvFiles, ∀ row ∈ files.rows csv, ∀ index ∈ columnIndices,
      (valueOf processors index row).isSome = true) :
    ∃ points,
      getCombinedCsvStatistics (processors.map stateless) files csvFiles columnIndices s =
        (.ok points, s) ∧
      CombinesSamples processors files csvFiles columnIndices points ∧
      ∀ (k index : ℕ), columnIndices[k]? = some index → ∃ samples,
        aggregateSamples (processors.map stateless) files csvFiles index s = (.ok samples, s) ∧
        (points.flatMap fun point => (point[k]?.join).getD []).Perm samples := by
  obtain ⟨n, hn⟩ := exists_longest (csvFiles.map files.rows)
  have hreaders : ∀ reader ∈ csvFiles.map files.rows, ∀ row ∈ reader,
      RowRead processors columnIndices row := List.forall_mem_map.mpr hread
  refine ⟨(List.range n).map (pointAt processors columnIndices (csvFiles.map files.rows)),
    ?_, ?_, fun k index hindex => ?_⟩
  · rw [getCombinedCsvStatistics, combineReaders_eq hcolumns hreaders hn]
    rfl
  · refine ⟨fun i => ?_, fun point hpoint => ?_, fun i point k index hpoint hindex => ?_⟩
    · rw [List.length_map, List.length_range, hn]
      simp
    · obtain ⟨i, -, rfl⟩ := List.mem_map.mp hpoint
      rw [pointAt, List.length_map]
    · rw [List.getElem?_map, Option.map_eq_some_iff] at hpoint
      obtain ⟨j, hj, rfl⟩ := hpoint
      obtain ⟨hlt, heq⟩ := List.getElem?_eq_some_iff.mp hj
      obtain rfl : i = j := by rwa [List.getElem_range] at heq
      refine ⟨samplesAt processors (csvFiles.map files.rows) i index, getElem?_pointAt hindex, ?_⟩
      exact map_samplesAt fun csv hcsv row hrow =>
        hread csv hcsv row hrow index (List.mem_of_getElem? hindex)
  · refine ⟨_, congrFun (aggregateSamples_eq fun csv hcsv row hrow =>
      hread csv hcsv row hrow index (List.mem_of_getElem? hindex)) s, ?_⟩
    have hlength : ∀ reader ∈ csvFiles.map files.rows, reader.length ≤ n := fun reader hreader =>
      Nat.le_of_not_lt fun hlt => Nat.lt_irrefl n ((hn n).mpr ⟨reader, hreader, hlt⟩)
    rw [List.flatMap_map]
    simp only [getElem?_pointAt hindex, Option.join_some, Option.getD_some]
    exact perm_samplesAt hlength

/-! ### Two files -/

/-- Two files of one column: the first has three rows, the second has one. -/
def unequalFiles : ResultFiles Bool where
  name _ := []
  isDirectory _ := false
  listFiles _ := none
  filesBelow _ := []
  rows csv := if csv then [.ok [some ['a']], .ok [some ['b', 'c']], .ok [none]]
    else [.ok [some ['d', 'e', 'f']]]
  properties _ := .error .io

/-- The number of characters in a cell. -/
def cellLength (value : Cell) : Except AnalysisError (Number ℕ) :=
  .ok (.double (value.getD []).length)

theorem exists_combinesSamples_unequalFiles : ∃ points,
    getCombinedCsvStatistics [stateless cellLength] unequalFiles [true, false] [0] .fresh =
      (.ok points, .fresh) ∧
    CombinesSamples [cellLength] unequalFiles [true, false] [0] points := by
  obtain ⟨points, hpoints, hcombines, -⟩ := exists_combinesSamples [cellLength] unequalFiles
    [true, false] [0] .fresh (by decide) (by decide)
  exact ⟨points, hpoints, hcombines⟩

end Shabdiz
