import Shabdiz.Site.JavaScript
import Shabdiz.Text.Split

/-!
# Queries as text

The analysis page keeps its query in the hash of its address: the metric, seven lists of selections
and the type of data, with a separator between each two and another one between the elements of a
list. `decode` assigns the pieces by their position, and leaves what it finds no piece for as it is.

## Main definitions

* `Query`, `Page` — a query, and what `decode` assigns
* `encodeArray`, `decodeArray`, `Page.encode`, `Page.decode` — the code

## Main results

* `decodeArray_encodeArray` — lists, empty or not
* `Page.splitOn_encode` — the pieces of an encoded query
* `decode_encode` — the round trip
-/

namespace Shabdiz

variable {Ω : Type}

/-- A query, for the type `ν` of its numbers. -/
structure Query (ν : Type) where
  metric : ν
  churn : List ν
  workload : List ν
  peerConfiguration : List ν
  experimentDuration : List ν
  trainingDuration : List ν
  clusteringAlgorithm : List ν
  feedbackEnabled : List ν

/-- A query with each of its values mapped. -/
def Query.map {ν ξ : Type} (f : ν → ξ) (q : Query ν) : Query ξ where
  metric := f q.metric
  churn := q.churn.map f
  workload := q.workload.map f
  peerConfiguration := q.peerConfiguration.map f
  experimentDuration := q.experimentDuration.map f
  trainingDuration := q.trainingDuration.map f
  clusteringAlgorithm := q.clusteringAlgorithm.map f
  feedbackEnabled := q.feedbackEnabled.map f

/-- The query, and `scope.data_type`. -/
structure Page (Ω : Type) where
  query : Query (JSNumber Ω)
  dataType : JSString

section Code

variable (numbers : Numbers Ω)

/-- `encodeArray` of the page: the values, with a hyphen after each but the last. -/
def encodeArray (array : List (JSNumber Ω)) : JSString :=
  array.zipIdx.foldl (fun encoded (value, index) =>
    encoded ++ numbers.toText value ++
      if (index : ℤ) ≠ array.length - 1 then [codeUnit '-'] else []) []

/-- `decodeArray` of the page: blank elements are left out. -/
def decodeArray (encodedArray : JSString) : List (JSNumber Ω) :=
  (encodedArray.splitOn (codeUnit '-')).foldl (fun decodedArray element =>
    if trimWhiteSpace element ≠ [] then decodedArray ++ [numbers.parseInt element]
    else decodedArray) []

namespace Page

/-- The query in the address of the page: its parts in a fixed order, with an underscore between
two. -/
def encode (page : Page Ω) : JSString :=
  numbers.toText page.query.metric ++ [codeUnit '_'] ++
    encodeArray numbers page.query.churn ++ [codeUnit '_'] ++
    encodeArray numbers page.query.workload ++ [codeUnit '_'] ++
    encodeArray numbers page.query.peerConfiguration ++ [codeUnit '_'] ++
    encodeArray numbers page.query.experimentDuration ++ [codeUnit '_'] ++
    encodeArray numbers page.query.trainingDuration ++ [codeUnit '_'] ++
    encodeArray numbers page.query.clusteringAlgorithm ++ [codeUnit '_'] ++
    encodeArray numbers page.query.feedbackEnabled ++ [codeUnit '_'] ++ page.dataType

/-- What is assigned for the piece at an index. Further pieces are only logged. -/
def assign (page : Page Ω) (value : JSString) (index : ℕ) : Page Ω :=
  match index with
  | 0 => { page with query.metric := numbers.parseInt value }
  | 1 => { page with query.churn := decodeArray numbers value }
  | 2 => { page with query.workload := decodeArray numbers value }
  | 3 => { page with query.peerConfiguration := decodeArray numbers value }
  | 4 => { page with query.experimentDuration := decodeArray numbers value }
  | 5 => { page with query.trainingDuration := decodeArray numbers value }
  | 6 => { page with query.clusteringAlgorithm := decodeArray numbers value }
  | 7 => { page with query.feedbackEnabled := decodeArray numbers value }
  | 8 => { page with dataType := value }
  | _ => page

/-- The query when nothing is encoded. -/
def emptyQuery : Query (JSNumber Ω) := ⟨.safe ⟨0, by decide⟩, [], [], [], [], [], [], []⟩

/-- `decode`, where `none` is `undefined`. -/
def decode (page : Page Ω) (encoded : Option JSString) : Page Ω :=
  match encoded with
  | none => { page with query := emptyQuery }
  | some encoded =>
    if trimWhiteSpace encoded = [] then { page with query := emptyQuery }
    else
      (encoded.splitOn (codeUnit '_')).zipIdx.foldl
        (fun page (value, index) => page.assign numbers value index) page

end Page

end Code

/-! ### Lists -/

section Lists

variable {numbers : Numbers Ω} {array : List (JSNumber Ω)} {selections : List SafeNatural}

theorem encodeArray_eq :
    encodeArray numbers array = [codeUnit '-'].intercalate (array.map numbers.toText) := by
  -- The elements from index `k` on, when `k` elements are encoded.
  have hrest : ∀ (rest : List (JSNumber Ω)) (k : ℕ) (encoded : JSString),
      array.length = k + rest.length →
      (rest.zipIdx k).foldl (fun encoded (value, index) => encoded ++ numbers.toText value ++
        if (index : ℤ) ≠ array.length - 1 then [codeUnit '-'] else []) encoded =
        encoded ++ [codeUnit '-'].intercalate (rest.map numbers.toText) := by
    intro rest
    induction rest with
    | nil => simp
    | cons value rest ih =>
      intro k encoded hlength
      rw [List.length_cons] at hlength
      rw [List.zipIdx_cons, List.foldl_cons, ih (k + 1) _ (by omega), List.map_cons]
      cases rest with
      | nil =>
        have hlast : (k : ℤ) = array.length - 1 := by simp [hlength]
        simp [hlast]
      | cons next rest =>
        rw [List.length_cons] at hlength
        have hnot : (k : ℤ) ≠ array.length - 1 := by omega
        rw [List.map_cons, List.intercalate_cons_of_ne_nil (List.cons_ne_nil _ _)]
        simp [hnot]
  exact hrest array 0 [] (by simp)

theorem trimWhiteSpace_ne_nil {c : UInt16} {s : JSString} (hc : c ∈ s)
    (hspace : isWhiteSpace c = false) : trimWhiteSpace s ≠ [] := by
  have hany : s.any (!isWhiteSpace ·) = true := List.any_eq_true.mpr ⟨c, hc, by rw [hspace]; rfl⟩
  rw [← isEmpty_trim] at hany
  intro h
  rw [show trim isWhiteSpace s = [] from h] at hany
  cases hany

theorem trimWhiteSpace_decimal (n : ℕ) : trimWhiteSpace (decimal n) ≠ [] := by
  obtain ⟨c, hc⟩ := List.exists_mem_of_ne_nil _ (decimal_ne_nil (n := n))
  exact trimWhiteSpace_ne_nil hc (isDecimalDigit_of_mem_decimal c hc).isWhiteSpace_eq_false

theorem encodeArray_map :
    encodeArray numbers (selections.map .ofNatural) =
      [codeUnit '-'].intercalate (selections.map fun n : SafeNatural => decimal n) := by
  rw [encodeArray_eq, List.map_map]
  exact congrArg _ (List.map_congr_left fun n _ => numbers.toText_ofNatural n)

/-- **A list is read back**, in order, also if it is empty. -/
theorem decodeArray_encodeArray :
    decodeArray numbers (encodeArray numbers (selections.map .ofNatural)) =
      selections.map .ofNatural := by
  rw [encodeArray_map, decodeArray]
  rcases eq_or_ne selections [] with rfl | hne
  · rfl
  have hdelimiter : ∀ f ∈ selections.map fun n : SafeNatural => decimal n, codeUnit '-' ∉ f := by
    intro f hf hmem
    obtain ⟨n, -, rfl⟩ := List.mem_map.mp hf
    exact (isDecimalDigit_of_mem_decimal _ hmem).ne (by decide) rfl
  rw [List.splitOn_intercalate _ hdelimiter fun h => hne (List.map_eq_nil_iff.mp h),
    List.foldl_map]
  have hpush : ∀ (rest : List SafeNatural) (decoded : List (JSNumber Ω)),
      rest.foldl (fun (decodedArray : List (JSNumber Ω)) (n : SafeNatural) =>
          if trimWhiteSpace (decimal n) ≠ [] then decodedArray ++ [numbers.parseInt (decimal n)]
          else decodedArray) decoded =
        decoded ++ rest.map .ofNatural := by
    intro rest
    induction rest with
    | nil => simp
    | cons n rest ih =>
      intro decoded
      rw [List.foldl_cons, if_pos (trimWhiteSpace_decimal n), ih, numbers.parseInt_decimal,
        List.append_assoc, List.singleton_append, List.map_cons]
  exact hpush selections []

/-- The separator of the pieces is in no list. -/
theorem notMem_encodeArray :
    codeUnit '_' ∉ encodeArray numbers (selections.map .ofNatural) := by
  rw [encodeArray_map]
  intro hmem
  refine forall_mem_intercalate (p := (· ≠ codeUnit '_')) (by decide) (fun f hf c hc => ?_) _ hmem
    rfl
  obtain ⟨n, -, rfl⟩ := List.mem_map.mp hf
  exact (isDecimalDigit_of_mem_decimal c hc).ne (by decide)

end Lists

/-! ### The round trip -/

section RoundTrip

variable {numbers : Numbers Ω} {q : Query SafeNatural} {dataType : JSString}

/-- The pieces of an encoded query. -/
def pieces (numbers : Numbers Ω) (page : Page Ω) : List JSString :=
  [numbers.toText page.query.metric, encodeArray numbers page.query.churn,
    encodeArray numbers page.query.workload, encodeArray numbers page.query.peerConfiguration,
    encodeArray numbers page.query.experimentDuration,
    encodeArray numbers page.query.trainingDuration,
    encodeArray numbers page.query.clusteringAlgorithm,
    encodeArray numbers page.query.feedbackEnabled, page.dataType]

theorem Page.encode_eq (page : Page Ω) :
    page.encode numbers = [codeUnit '_'].intercalate (pieces numbers page) := by
  simp only [encode, pieces, List.intercalate, List.intersperse_cons_cons,
    List.intersperse_singleton, List.flatten_cons, List.flatten_nil, List.append_assoc,
    List.cons_append, List.nil_append, List.append_nil]

/-- **The pieces of an encoded query** are what it is split into. -/
theorem Page.splitOn_encode (hdataType : codeUnit '_' ∉ dataType) :
    (encode numbers ⟨q.map .ofNatural, dataType⟩).splitOn (codeUnit '_') =
      pieces numbers ⟨q.map .ofNatural, dataType⟩ := by
  have hmetric : codeUnit '_' ∉ numbers.toText (.ofNatural q.metric) := by
    rw [numbers.toText_ofNatural]
    exact fun hmem => (isDecimalDigit_of_mem_decimal _ hmem).ne (by decide) rfl
  rw [encode_eq]
  refine List.splitOn_intercalate _ ?_ (List.cons_ne_nil _ _)
  simp only [pieces, Query.map, List.forall_mem_cons]
  exact ⟨hmetric, notMem_encodeArray, notMem_encodeArray, notMem_encodeArray, notMem_encodeArray,
    notMem_encodeArray, notMem_encodeArray, notMem_encodeArray, hdataType, by simp⟩

theorem Page.trimWhiteSpace_encode :
    trimWhiteSpace (encode numbers ⟨q.map .ofNatural, dataType⟩) ≠ [] := by
  refine trimWhiteSpace_ne_nil (c := codeUnit '_') ?_ (by decide)
  simp [encode]

/-- **The round trip**: whatever the page was before, an encoded query is restored, and it is
encoded in the same way again. -/
theorem decode_encode (numbers : Numbers Ω) (q : Query SafeNatural) (dataType : JSString)
    (hdataType : codeUnit '_' ∉ dataType) (before : Page Ω) :
    before.decode numbers (some (Page.encode numbers ⟨q.map .ofNatural, dataType⟩)) =
        ⟨q.map .ofNatural, dataType⟩ ∧
      Page.encode numbers
          (before.decode numbers (some (Page.encode numbers ⟨q.map .ofNatural, dataType⟩))) =
        Page.encode numbers ⟨q.map .ofNatural, dataType⟩ := by
  have hdecode : before.decode numbers (some (Page.encode numbers ⟨q.map .ofNatural, dataType⟩)) =
      ⟨q.map .ofNatural, dataType⟩ := by
    simp only [Page.decode, if_neg Page.trimWhiteSpace_encode, Page.splitOn_encode hdataType]
    simp only [pieces, Query.map, List.zipIdx_cons, List.zipIdx_nil, List.foldl_cons,
      List.foldl_nil, Page.assign, decodeArray_encodeArray, numbers.toText_ofNatural,
      numbers.parseInt_decimal]
  exact ⟨hdecode, by rw [hdecode]⟩

/-- A few selections, and lists that are empty. -/
def someSelections : Query SafeNatural where
  metric := ⟨3, by decide⟩
  churn := []
  workload := [⟨10, by decide⟩, ⟨2, by decide⟩, ⟨10, by decide⟩]
  peerConfiguration := []
  experimentDuration := [⟨0, by decide⟩]
  trainingDuration := []
  clusteringAlgorithm := []
  feedbackEnabled := [⟨1, by decide⟩]

/-- The only other number that is needed for them is `NaN`, and that only before. -/
def onlyNaN : Numbers Unit := ⟨(), fun _ => (), fun _ => codeUnits "NaN"⟩

theorem decode_encode_someSelections :
    Page.decode onlyNaN ⟨⟨.other (), [.other ()], [], [], [], [], [], []⟩, codeUnits "raw"⟩
          (some (Page.encode onlyNaN ⟨someSelections.map .ofNatural, codeUnits "mean"⟩)) =
        ⟨someSelections.map .ofNatural, codeUnits "mean"⟩ ∧
      Page.encode onlyNaN
          (Page.decode onlyNaN ⟨⟨.other (), [.other ()], [], [], [], [], [], []⟩, codeUnits "raw"⟩
            (some (Page.encode onlyNaN ⟨someSelections.map .ofNatural, codeUnits "mean"⟩))) =
        Page.encode onlyNaN ⟨someSelections.map .ofNatural, codeUnits "mean"⟩ :=
  decode_encode onlyNaN someSelections (codeUnits "mean") (by decide) _

end RoundTrip

end Shabdiz
