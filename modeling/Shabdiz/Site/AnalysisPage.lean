import Shabdiz.Program.Triple
import Shabdiz.Site.QueryMatches

/-!
# The analysis page

The page is opened at an address; it makes its links and checkboxes, reads the query from the hash
of the address and shows what matches the query. After that a user clicks at the metrics, at the
checkboxes of the filters and at the types of data. Each time the query is changed, written into the
hash and shown again. A checkbox is turned over by the browser before the handler runs, and the
handler only ever checks more of them.

The links and the checkboxes are what the browser makes of two templates in which `Mark.up` has put
the names of the metrics and the labels as they are. So they are a parameter, of which is relied on
what it is for texts that mean nothing to either. A label such as `x">y` would end the tag of its
checkbox before the id and the handler. What is drawn is left out: the renderer reads what matches,
and may throw.

## Main definitions

* `PageState`, `PageProgram` — the page, and what its scripts do with it
* `Templates` — the links and the checkboxes that are made, and what is relied on of them
* `update`, `load`, `handle` — the code
* `Site.IsPlain`, `Templates.Sound` — the texts for which all links and checkboxes are made
* `PageReachable` — the states in which the page may be
* `ShowsQuery` — the address, the checkboxes and what is shown agree with a query

## Main results

* `run_update` — what `update` does with a query that selects positions
* `run_load` — a page that is opened at the address of another one
* `page_shows_iff` — when the page always shows its query
-/

namespace Shabdiz

variable {Ω μ σ : Type}

/-! ### The code -/

/-- The rows of the files that `scope` reads, and their attributes. -/
structure Site (μ σ : Type) where
  metrics : List μ
  name : μ → JSString
  scenarios : List σ
  prop : σ → ScenarioAttribute → JSString

/-- A link or a checkbox of the page, and what its handler passes on to `action`. -/
structure PageElement (η : Type) where
  id : JSString
  handler : Option η

/-- What the browser makes of `sidebar.html` with the names of the metrics, and of `filter.html`
with the labels of an attribute. -/
structure Templates where
  sidebar : List JSString → List (PageElement SafeNatural)
  filter : ScenarioAttribute → List JSString → List (PageElement (SafeNatural × ScenarioAttribute))

/-- A link or a checkbox, by its position among those to the metrics or for an attribute. -/
inductive ElementRef where
  | link (index : ℕ)
  | checkbox (a : ScenarioAttribute) (index : ℕ)
deriving DecidableEq

/-- The page. -/
structure PageState (Ω μ σ : Type) where
  /-- The query, and `scope.data_type`. -/
  page : Page Ω
  /-- The hash of the address, without its sign. -/
  hash : JSString
  /-- The links to the metrics. -/
  links : List (PageElement SafeNatural)
  /-- The link that is active. -/
  activeMetric : Option ℕ
  /-- The values of an attribute, of which the checkboxes are made. -/
  labels : ScenarioAttribute → List JSString
  boxes : ScenarioAttribute → List (PageElement (SafeNatural × ScenarioAttribute))
  checked : ScenarioAttribute → ℕ → Bool
  /-- `scope.matches`. -/
  matched : List σ
  /-- `scope.metric`. -/
  metric : Option μ

/-- What the scripts do. -/
abbrev PageProgram (Ω μ σ : Type) := EStateM JSError (PageState Ω μ σ)

/-- What a user does: a link is clicked, a checkbox for an attribute is turned over, each by its
position. -/
inductive PageEvent where
  | metricClicked (index : SafeNatural)
  | filterChecked (index : SafeNatural) (property : ScenarioAttribute)
  | dataTypeChanged (value : JSString)
  /-- The page is opened again at the address that it has. -/
  | reload

/-- An attribute as the scripts name it. -/
def ScenarioAttribute.propertyName : ScenarioAttribute → JSString
  | .churn => codeUnits "churn"
  | .workload => codeUnits "workload"
  | .peerConfiguration => codeUnits "peer_configuration"
  | .experimentDuration => codeUnits "experiment_duration"
  | .trainingDuration => codeUnits "training_duration"
  | .clusteringAlgorithm => codeUnits "clustering_algorithm"
  | .feedbackEnabled => codeUnits "feedback_enabled"

/-- The id of the link to a metric. -/
def metricId (metric : JSString) : JSString := codeUnits "metric_" ++ metric

/-- The id of the checkbox of a selection. -/
def boxId (a : ScenarioAttribute) (selection : JSString) : JSString :=
  a.propertyName ++ codeUnit '_' :: selection

/-- The first element of the page that has an id. -/
def PageState.elementById {Ω μ σ : Type} (s : PageState Ω μ σ) (id : JSString) :
    Option ElementRef :=
  ((s.links.findIdx? (·.id == id)).map .link).or
    (scenarioAttributes.findSome? fun a =>
      ((s.boxes a).findIdx? (·.id == id)).map (.checkbox a))

/-- Only the links and the checkboxes of the page have an id. -/
theorem PageState.elementById_of_eq {Ω μ σ : Type} {s t : PageState Ω μ σ}
    (hlinks : s.links = t.links) (hboxes : s.boxes = t.boxes) : s.elementById = t.elementById := by
  funext id
  rw [elementById, elementById, hlinks, hboxes]

/-- The position in an array that a number is an index for. The others are beyond the end of every
array. -/
def JSNumber.position : JSNumber Ω → ℕ
  | .safe i => if 0 ≤ i.1 then i.1.toNat else 2 ^ 53
  | .other _ => 2 ^ 53

/-- `===`, where one of the numbers is a natural number. -/
def JSNumber.isNatural (index : SafeNatural) : JSNumber Ω → Bool
  | .safe i => i.1 = index.1
  | .other _ => false

/-- `Array.prototype.addIfAbsent`. -/
def addIfAbsent (array : List (JSNumber Ω)) (element : SafeNatural) : List (JSNumber Ω) :=
  if array.any (JSNumber.isNatural element) then array else array ++ [.ofNatural element]

/-- `Array.prototype.removeIfExists`. -/
def removeIfExists (array : List (JSNumber Ω)) (element : SafeNatural) : List (JSNumber Ω) :=
  array.eraseP (JSNumber.isNatural element)

/-- `query[property] = selections`. -/
def Query.setSelections {ν : Type} (q : Query ν) (selections : List ν) :
    ScenarioAttribute → Query ν
  | .churn => { q with churn := selections }
  | .workload => { q with workload := selections }
  | .peerConfiguration => { q with peerConfiguration := selections }
  | .experimentDuration => { q with experimentDuration := selections }
  | .trainingDuration => { q with trainingDuration := selections }
  | .clusteringAlgorithm => { q with clusteringAlgorithm := selections }
  | .feedbackEnabled => { q with feedbackEnabled := selections }

/-- What the browser does with a checkbox. -/
def turnOver (checked : ScenarioAttribute → ℕ → Bool) (property : ScenarioAttribute) (index : ℕ) :
    ScenarioAttribute → ℕ → Bool :=
  Function.update checked property
    (Function.update (checked property) index !checked property index)

/-- A checkbox is checked. The other elements have no use for the property. -/
def checkBox (checked : ScenarioAttribute → ℕ → Bool) :
    Option ElementRef → ScenarioAttribute → ℕ → Bool
  | some (.checkbox a index) =>
    Function.update checked a (Function.update (checked a) index true)
  | _ => checked

/-- The checkboxes of the selections for an attribute are checked, as far as there are any. -/
def checkSelected (numbers : Numbers Ω) (elementById : JSString → Option ElementRef)
    (q : Query (JSNumber Ω)) (checked : ScenarioAttribute → ℕ → Bool) (a : ScenarioAttribute) :
    ScenarioAttribute → ℕ → Bool :=
  (q.selections a).foldl
    (fun checked selection => checkBox checked (elementById (boxId a (numbers.toText selection))))
    checked

/-- The link that is made active. -/
def activeLink : Option ElementRef → Option ℕ
  | some (.link index) => some index
  | _ => none

section Code

variable (numbers : Numbers Ω) (templates : Templates) (site : Site μ σ)
  (renderer : PageState Ω μ σ → Option JSError)

/-- `update` of the query. -/
def update : PageProgram Ω μ σ PUnit := do
  modify fun s => { s with hash := s.page.encode numbers }
  let s ← get
  -- The name of the metric is the title, so there has to be one.
  match site.metrics[s.page.query.metric.position]? with
  | none => throw .typeError
  | some metric => do
    modify fun s => { s with
      activeMetric :=
        activeLink (s.elementById (metricId (numbers.toText s.page.query.metric))) }
    modify fun s => { s with
      checked := scenarioAttributes.foldl (checkSelected numbers s.elementById s.page.query)
        s.checked }
    let matched ← fromExcept
      (queryMatches site.prop site.scenarios (s.page.query.map JSNumber.position))
    modify fun s => { s with matched, metric := some metric }
    let s ← get
    match renderer s with
    | none => pure ⟨⟩
    | some e => throw e

/-- The links are made. -/
def makeSidebar : PageProgram Ω μ σ PUnit :=
  modify fun s => { s with links := templates.sidebar (site.metrics.map site.name) }

/-- The checkboxes for an attribute are made. -/
def makeFilters (a : ScenarioAttribute) : PageProgram Ω μ σ PUnit := do
  let keys ← fromExcept (attributeKeys site.prop site.scenarios a)
  modify fun s => { s with
    labels := Function.update s.labels a keys
    boxes := Function.update s.boxes a (templates.filter a keys) }

/-- A page before its scripts run. -/
def blankPage (hash : JSString) : PageState Ω μ σ where
  page := ⟨Page.emptyQuery, codeUnits "overtime"⟩
  hash := hash
  links := []
  activeMetric := none
  labels := fun _ => []
  boxes := fun _ => []
  checked := fun _ _ => false
  matched := []
  metric := none

/-- `main`, and `init` of the query. -/
def load : PageProgram Ω μ σ PUnit := do
  modify fun s => blankPage s.hash
  makeSidebar templates site
  forM scenarioAttributes (makeFilters templates site)
  modify fun s => { s with page := s.page.decode numbers (some s.hash) }
  update numbers site renderer

/-- What the handlers do. A click is without effect if the link has none. -/
def handle : PageEvent → PageProgram Ω μ σ PUnit
  | .metricClicked index => do
    let s ← get
    match s.links[index.1]?.bind PageElement.handler with
    | none => pure ⟨⟩
    | some index => do
      modify fun s => { s with page.query.metric := .ofNatural index }
      update numbers site renderer
  | .filterChecked index a => do
    modify fun s => { s with checked := turnOver s.checked a index }
    let s ← get
    match (s.boxes a)[index.1]?.bind PageElement.handler with
    | none => pure ⟨⟩
    | some (selection, property) => do
      modify fun s => { s with
        page.query := s.page.query.setSelections
          (if s.checked a index then addIfAbsent (s.page.query.selections property) selection
          else removeIfExists (s.page.query.selections property) selection) property }
      update numbers site renderer
  | .dataTypeChanged value => do
    modify fun s => { s with page.dataType := value }
    update numbers site renderer
  | .reload => load numbers templates site renderer

end Code

/-! ### Queries that select positions -/

/-- The values of `data_type_chooser`. -/
def dataTypes : List JSString :=
  ["overtime", "overall", "btraining", "atraining", "batraining"].map codeUnits

/-- What a user can do in a state. -/
def PageEvent.Possible (s : PageState Ω μ σ) : PageEvent → Prop
  | .metricClicked index => index.1 < s.links.length
  | .filterChecked index property => index.1 < (s.boxes property).length
  | .dataTypeChanged value => value ∈ dataTypes
  | .reload => True

/-- The selections are positions of labels, none selected twice. -/
structure SelectsLabels (labels : ScenarioAttribute → List JSString) (q : Query SafeNatural) :
    Prop where
  inRange : ∀ a, ∀ i ∈ q.selections a, i.1 < (labels a).length
  nodup : ∀ a, (q.selections a).Nodup

/-! ### The elements of the page -/

/-- A link for each of some metrics, with its handler. -/
def linksTo (count : ℕ) : List (PageElement SafeNatural) :=
  (List.range count).map fun k =>
    ⟨metricId (decimal k), if h : k < 2 ^ 53 then some ⟨k, h⟩ else none⟩

/-- A checkbox for each of some labels, with its handler. -/
def boxesFor (a : ScenarioAttribute) (count : ℕ) :
    List (PageElement (SafeNatural × ScenarioAttribute)) :=
  (List.range count).map fun k =>
    ⟨boxId a (decimal k), if h : k < 2 ^ 53 then some (⟨k, h⟩, a) else none⟩

/-- A text that means nothing to `Mark.up`, which looks for its tags again after each that it has
replaced and takes a dollar sign for a pattern, nor to the browser, as a text and between quotes. -/
def isPlainText (text : JSString) : Bool :=
  text.all fun c => !([codeUnit '"', codeUnit '<', codeUnit '\x7b', codeUnit '$'].contains c)

/-- The names and the labels are plain. -/
structure Site.IsPlain (site : Site μ σ) : Prop where
  names : ∀ metric ∈ site.metrics, isPlainText (site.name metric)
  labels : ∀ scenario ∈ site.scenarios, ∀ a, isPlainText (site.prop scenario a)

/-- **What is relied on** of `Mark.up` and the browser: of texts that are plain, a link or a
checkbox is made for each. -/
structure Templates.Sound (templates : Templates) : Prop where
  sidebar : ∀ names : List JSString, (∀ name ∈ names, isPlainText name) →
    templates.sidebar names = linksTo names.length
  filter : ∀ a, ∀ labels : List JSString, (∀ label ∈ labels, isPlainText label) →
    templates.filter a labels = boxesFor a labels.length

section Elements

variable {a a' : ScenarioAttribute} {i k m : ℕ}

theorem decimal_inj {m n : ℕ} (h : decimal m = decimal n) : m = n := by
  rw [← foldl_decimal (n := m), h, foldl_decimal]

theorem metricId_inj (h : metricId (decimal i) = metricId (decimal k)) : i = k :=
  decimal_inj (List.append_cancel_left h)

theorem take_boxId (text : JSString) : (boxId a text).take 2 = a.propertyName.take 2 := by
  cases a <;> rfl

/-- An id tells the attribute and the position. -/
theorem boxId_inj (h : boxId a (decimal i) = boxId a' (decimal k)) : a = a' ∧ i = k := by
  have htake : a.propertyName.take 2 = a'.propertyName.take 2 := by
    rw [← take_boxId (decimal i), h, take_boxId]
  have ha : a = a' := by
    revert htake
    cases a <;> cases a' <;> decide
  subst ha
  exact ⟨rfl, decimal_inj (List.cons.inj (List.append_cancel_left h)).2⟩

theorem metricId_ne_boxId (text text' : JSString) : metricId text ≠ boxId a text' := by
  intro h
  have htake : (metricId text).take 2 = a.propertyName.take 2 := by rw [h, take_boxId]
  have hmetric : (metricId text).take 2 = (codeUnits "metric_").take 2 := rfl
  rw [hmetric] at htake
  revert htake
  cases a <;> decide

theorem handler_linksTo {index : SafeNatural} (h : index.1 < m) :
    (linksTo m)[index.1]?.bind PageElement.handler = some index := by
  rw [linksTo, List.getElem?_map, List.getElem?_range h, Option.map_some, Option.bind_some]
  exact dif_pos index.2

theorem handler_boxesFor {index : SafeNatural} (h : index.1 < m) :
    (boxesFor a m)[index.1]?.bind PageElement.handler = some (index, a) := by
  rw [boxesFor, List.getElem?_map, List.getElem?_range h, Option.map_some, Option.bind_some]
  exact dif_pos index.2

/-- The position of an element whose id is that of its position. -/
theorem findIdx?_range {η : Type} {f : ℕ → PageElement η} {id : JSString}
    (hid : ∀ j, (f j).id = id ↔ j = k) :
    ((List.range m).map f).findIdx? (·.id == id) = if k < m then some k else none := by
  split
  · next hlt =>
    rw [List.findIdx?_eq_some_iff_getElem]
    refine ⟨by simpa using hlt, by simpa using (hid k).2 rfl, fun j hj => ?_⟩
    have hne : (f j).id ≠ id := fun h => absurd ((hid j).1 h) (Nat.ne_of_lt hj)
    simpa using hne
  · next hge =>
    rw [List.findIdx?_eq_none_iff]
    intro x hx
    obtain ⟨j, hj, rfl⟩ := List.mem_map.1 hx
    have hne : (f j).id ≠ id := fun h => hge ((hid j).1 h ▸ List.mem_range.1 hj)
    simpa using hne

/-- No element has an id that is not among theirs. -/
theorem findIdx?_range_of_ne {η : Type} {f : ℕ → PageElement η} {id : JSString}
    (hid : ∀ j, (f j).id ≠ id) : ((List.range m).map f).findIdx? (·.id == id) = none := by
  rw [List.findIdx?_eq_none_iff]
  intro x hx
  obtain ⟨j, -, rfl⟩ := List.mem_map.1 hx
  simpa using hid j

theorem mem_scenarioAttributes (a : ScenarioAttribute) : a ∈ scenarioAttributes := by
  cases a <;> decide

/-- Only one attribute has what is looked for. -/
theorem findSome?_scenarioAttributes {f : ScenarioAttribute → Option ElementRef}
    (h : ∀ b, b ≠ a → f b = none) : scenarioAttributes.findSome? f = f a := by
  cases hfind : scenarioAttributes.findSome? f with
  | none => exact (List.findSome?_eq_none_iff.1 hfind a (mem_scenarioAttributes a)).symm
  | some x =>
    obtain ⟨b, -, hb⟩ := List.exists_of_findSome?_eq_some hfind
    by_cases hba : b = a
    · rw [← hba, hb]
    · rw [h b hba] at hb
      cases hb

variable {s : PageState Ω μ σ} {count : ScenarioAttribute → ℕ}

theorem elementById_metricId (hlinks : s.links = linksTo m) (hk : k < m) :
    s.elementById (metricId (decimal k)) = some (.link k) := by
  have hfind : (linksTo m).findIdx? (·.id == metricId (decimal k)) = some k := by
    rw [linksTo, findIdx?_range (k := k) fun j => ⟨metricId_inj, fun h => h ▸ rfl⟩, if_pos hk]
  rw [PageState.elementById, hlinks, hfind]
  rfl

theorem elementById_boxId (hlinks : s.links = linksTo m)
    (hboxes : ∀ a, s.boxes a = boxesFor a (count a)) :
    s.elementById (boxId a (decimal k)) = if k < count a then some (.checkbox a k) else none := by
  have hlink : s.links.findIdx? (·.id == boxId a (decimal k)) = none := by
    rw [hlinks, linksTo]
    exact findIdx?_range_of_ne fun _ => metricId_ne_boxId _ _
  have hself : (s.boxes a).findIdx? (·.id == boxId a (decimal k)) =
      if k < count a then some k else none := by
    rw [hboxes, boxesFor]
    exact findIdx?_range fun j => ⟨fun h => (boxId_inj h).2, fun h => h ▸ rfl⟩
  have hother : ∀ b, b ≠ a → (s.boxes b).findIdx? (·.id == boxId a (decimal k)) = none := by
    intro b hb
    rw [hboxes, boxesFor]
    exact findIdx?_range_of_ne fun _ h => hb (boxId_inj h).1
  have hfind : scenarioAttributes.findSome? (fun b =>
      ((s.boxes b).findIdx? (·.id == boxId a (decimal k))).map (ElementRef.checkbox b)) =
      ((s.boxes a).findIdx? (·.id == boxId a (decimal k))).map (ElementRef.checkbox a) :=
    findSome?_scenarioAttributes fun b hb => by rw [hother b hb, Option.map_none]
  rw [PageState.elementById, hlink, Option.map_none, Option.none_or, hfind, hself]
  split <;> rfl

end Elements

section Queries

variable {q : Query SafeNatural} {a a' : ScenarioAttribute} {i : ℕ}
  {count : ScenarioAttribute → ℕ} {checked : ScenarioAttribute → ℕ → Bool}
  {numbers : Numbers Ω} {elementById : JSString → Option ElementRef}

theorem Query.selections_map {ν ξ : Type} (f : ν → ξ) (q : Query ν) (a : ScenarioAttribute) :
    (q.map f).selections a = (q.selections a).map f := by
  cases a <;> rfl

theorem Query.map_map {ν ξ ζ : Type} (f : ν → ξ) (g : ξ → ζ) (q : Query ν) :
    (q.map f).map g = q.map (g ∘ f) := by
  simp only [Query.map, List.map_map, Function.comp_apply]

theorem Query.setSelections_map {ν ξ : Type} (f : ν → ξ) (q : Query ν) (l : List ν)
    (a : ScenarioAttribute) :
    (q.map f).setSelections (l.map f) a = (q.setSelections l a).map f := by
  cases a <;> rfl

theorem Query.selections_setSelections {ν : Type} (q : Query ν) (l : List ν)
    (a a' : ScenarioAttribute) :
    (q.setSelections l a).selections a' = if a' = a then l else q.selections a' := by
  cases a <;> cases a' <;> rfl

theorem Query.metric_setSelections {ν : Type} (q : Query ν) (l : List ν) (a : ScenarioAttribute) :
    (q.setSelections l a).metric = q.metric := by
  cases a <;> rfl

theorem JSNumber.position_ofNatural (n : SafeNatural) :
    (JSNumber.ofNatural n : JSNumber Ω).position = n.1 := by
  show (if (0 : ℤ) ≤ (n.1 : ℤ) then (n.1 : ℤ).toNat else 2 ^ 53) = n.1
  rw [if_pos (Int.natCast_nonneg _), Int.toNat_natCast]

theorem Query.positions_map (q : Query SafeNatural) :
    ((q.map .ofNatural : Query (JSNumber Ω)).map JSNumber.position) = q.map Subtype.val := by
  rw [Query.map_map]
  exact congrArg (Query.map · q) (funext JSNumber.position_ofNatural)

theorem JSNumber.isNatural_ofNatural (m n : SafeNatural) :
    (JSNumber.ofNatural m : JSNumber Ω).isNatural n = decide (m = n) := by
  show decide ((m.1 : ℤ) = (n.1 : ℤ)) = decide (m = n)
  rw [decide_eq_decide, Int.natCast_inj, Subtype.ext_iff]

theorem addIfAbsent_map (l : List SafeNatural) (n : SafeNatural) :
    addIfAbsent (l.map .ofNatural : List (JSNumber Ω)) n =
      (if n ∈ l then l else l ++ [n]).map .ofNatural := by
  have hany : (l.map .ofNatural : List (JSNumber Ω)).any (JSNumber.isNatural n) =
      decide (n ∈ l) := by
    rw [List.any_map, Bool.eq_iff_iff, List.any_eq_true, decide_eq_true_eq]
    simp only [Function.comp_apply, JSNumber.isNatural_ofNatural, decide_eq_true_eq,
      exists_eq_right]
  rw [addIfAbsent, hany]
  by_cases hmem : n ∈ l
  · simp [hmem]
  · simp [hmem]

theorem removeIfExists_map (l : List SafeNatural) (n : SafeNatural) :
    removeIfExists (l.map .ofNatural : List (JSNumber Ω)) n = (l.erase n).map .ofNatural := by
  have hcomp : JSNumber.isNatural n ∘ (JSNumber.ofNatural : SafeNatural → JSNumber Ω) =
      fun m => decide (m = n) := funext fun m => JSNumber.isNatural_ofNatural m n
  rw [removeIfExists, List.eraseP_map, hcomp, List.erase_eq_eraseP]
  congr 2
  funext m
  rw [Bool.eq_iff_iff, decide_eq_true_eq, beq_iff_eq, eq_comm]

/-- Which checkboxes are checked for one attribute. -/
theorem checkSelected_iff (hboxes : ∀ a k, elementById (boxId a (decimal k)) =
      if k < count a then some (.checkbox a k) else none) (q : Query SafeNatural) :
    checkSelected numbers elementById (q.map .ofNatural) checked a a' i = true ↔
      checked a' i = true ∨ a' = a ∧ i < count a ∧ i ∈ (q.selections a).map Subtype.val := by
  rw [checkSelected, Query.selections_map]
  generalize q.selections a = selections
  induction selections generalizing checked with
  | nil => simp
  | cons selection selections ih =>
    rw [List.map_cons, List.foldl_cons, ih, List.map_cons, List.mem_cons, numbers.toText_ofNatural,
      hboxes]
    split
    · next hlt =>
      rw [checkBox]
      by_cases ha : a' = a
      · subst ha
        by_cases hi : i = selection.1
        · subst hi
          simp [hlt]
        · simp [hi]
      · simp [ha]
    · next hnot =>
      have hnone : checkBox checked none = checked := rfl
      rw [hnone]
      constructor
      · rintro (h | ⟨rfl, hlt, hmem⟩)
        · exact .inl h
        · exact .inr ⟨rfl, hlt, .inr hmem⟩
      · rintro (h | ⟨rfl, hlt, rfl | hmem⟩)
        · exact .inl h
        · exact absurd hlt hnot
        · exact .inr ⟨rfl, hlt, hmem⟩

/-- **All the checkboxes of the selections** are checked. -/
theorem foldl_checkSelected_iff (hboxes : ∀ a k, elementById (boxId a (decimal k)) =
      if k < count a then some (.checkbox a k) else none) (q : Query SafeNatural)
    (attributes : List ScenarioAttribute) :
    attributes.foldl (checkSelected numbers elementById (q.map .ofNatural)) checked a i = true ↔
      checked a i = true ∨
        a ∈ attributes ∧ i < count a ∧ i ∈ (q.selections a).map Subtype.val := by
  induction attributes generalizing checked with
  | nil => simp
  | cons a' attributes ih =>
    rw [List.foldl_cons, ih, checkSelected_iff hboxes, List.mem_cons]
    constructor
    · rintro ((h | ⟨rfl, h⟩) | ⟨hmem, h⟩)
      · exact .inl h
      · exact .inr ⟨.inl rfl, h⟩
      · exact .inr ⟨.inr hmem, h⟩
    · rintro (h | ⟨rfl | hmem, h⟩)
      · exact .inl (.inl h)
      · exact .inl (.inr ⟨rfl, h⟩)
      · exact .inr ⟨hmem, h⟩

end Queries

/-! ### What is shown -/

section Shown

variable (numbers : Numbers Ω) (templates : Templates) (site : Site μ σ)

/-- The page has a query that `update` can show. -/
structure HasQuery (s : PageState Ω μ σ) (q : Query SafeNatural) : Prop where
  links : s.links = linksTo site.metrics.length
  boxes : ∀ a, s.boxes a = boxesFor a (s.labels a).length
  query : s.page.query = q.map .ofNatural
  dataType : s.page.dataType ∈ dataTypes
  metric : q.metric.1 < site.metrics.length
  labels : ∀ a, attributeKeys site.prop site.scenarios a = .ok (s.labels a)
  selects : SelectsLabels s.labels q
  /-- The browser unchecks a checkbox before its handler runs. -/
  checked : ∀ a i, s.checked a i = true → i ∈ (q.selections a).map Subtype.val

/-- **The query is shown**: in the address, by the checkboxes, and by what matches it. -/
structure ShowsQuery (s : PageState Ω μ σ) (q : Query SafeNatural) : Prop
    extends HasQuery site s q where
  hash : s.hash = s.page.encode numbers
  activeMetric : s.activeMetric = some q.metric.1
  metricShown : s.metric = site.metrics[q.metric.1]?
  checkedSelections : ∀ a i, s.checked a i = true ↔ i ∈ (q.selections a).map Subtype.val
  computed : queryMatches site.prop site.scenarios (q.map Subtype.val) = .ok s.matched
  /-- The scenarios that have selected values for all attributes, each once. -/
  perm : s.matched.Perm (site.scenarios.filter (isMatch site.prop (q.map Subtype.val) s.labels))
  /-- Those with one churn are in the order in which they were. -/
  inOrder : ∀ churn, s.matched.filter (site.prop · .churn = churn) =
    (site.scenarios.filter (isMatch site.prop (q.map Subtype.val) s.labels)).filter
      (site.prop · .churn = churn)

variable {numbers templates site} {s t : PageState Ω μ σ} {q : Query SafeNatural}

/-- Nothing else is shown. -/
theorem ShowsQuery.ext (hs : ShowsQuery numbers site s q) (ht : ShowsQuery numbers site t q)
    (hdataType : s.page.dataType = t.page.dataType) : s = t := by
  have hpage : s.page = t.page := by
    show (⟨s.page.query, s.page.dataType⟩ : Page Ω) = ⟨t.page.query, t.page.dataType⟩
    rw [hs.query, ht.query, hdataType]
  have hhash : s.hash = t.hash := by rw [hs.hash, ht.hash, hpage]
  have hactive : s.activeMetric = t.activeMetric := hs.activeMetric.trans ht.activeMetric.symm
  have hlabels : s.labels = t.labels := by
    funext a
    exact Except.ok.inj ((hs.labels a).symm.trans (ht.labels a))
  have hlinks : s.links = t.links := hs.links.trans ht.links.symm
  have hboxes : s.boxes = t.boxes := by
    funext a
    rw [hs.boxes, ht.boxes, hlabels]
  have hchecked : s.checked = t.checked := by
    funext a i
    rw [Bool.eq_iff_iff, hs.checkedSelections, ht.checkedSelections]
  have hmatched : s.matched = t.matched := Except.ok.inj (hs.computed.symm.trans ht.computed)
  have hmetric : s.metric = t.metric := hs.metricShown.trans ht.metricShown.symm
  obtain ⟨page, hash, links, activeMetric, labels, boxes, checked, matched, metric⟩ := s
  subst hpage hhash hlinks hactive hlabels hboxes hchecked hmatched hmetric
  rfl

/-- The matches of a query that selects labels. -/
theorem exists_queryMatches (h : HasQuery site s q) :
    ∃ matched, queryMatches site.prop site.scenarios (q.map Subtype.val) = .ok matched ∧
      ∀ churn, matched.filter (site.prop · .churn = churn) =
        (site.scenarios.filter (isMatch site.prop (q.map Subtype.val) s.labels)).filter
          (site.prop · .churn = churn) := by
  have hkeys : ∀ a, (s.labels a).Nodup ∧
      ∀ key, key ∈ s.labels a ↔ key ∈ site.scenarios.map (site.prop · a) := by
    intro a
    obtain ⟨keys, hlabels, hnodup, hmem⟩ :=
      attributeKeys_eq_ok (notMem_of_attributeKeys (h.labels a))
    rw [Except.ok.inj ((h.labels a).symm.trans hlabels)]
    exact ⟨hnodup, hmem⟩
  have hinRange : ∀ selection ∈ (q.map Subtype.val).churn,
      selection < (s.labels .churn).length := by
    intro selection hselection
    obtain ⟨i, hi, rfl⟩ := List.mem_map.1 hselection
    exact h.selects.inRange .churn i hi
  have hnodup : ((q.map Subtype.val).selections .churn).Nodup := by
    rw [Query.selections_map]
    exact (h.selects.nodup .churn).map Subtype.val_injective
  have hfirst := foldlM_pushGroup [] (notMem_of_attributeKeys (h.labels .churn)) (hkeys .churn).2
    hinRange
  refine ⟨_, queryMatches_eq_ok h.labels hfirst, fun churn => ?_⟩
  rw [List.nil_append]
  exact filter_flatMap_isMatch site.prop site.scenarios (q.map Subtype.val)
    (nodup_filterMap_getElem? (hkeys .churn).1 hnodup) (fun value => mem_filterMap_getElem?) churn

variable {renderer : PageState Ω μ σ → Option JSError}

/-- The state in which the renderer is called. -/
def rendered (numbers : Numbers Ω) (s : PageState Ω μ σ) (matched : List σ) (metric : μ) :
    PageState Ω μ σ where
  page := s.page
  hash := s.page.encode numbers
  links := s.links
  activeMetric := activeLink (s.elementById (metricId (numbers.toText s.page.query.metric)))
  labels := s.labels
  boxes := s.boxes
  checked := scenarioAttributes.foldl (checkSelected numbers s.elementById s.page.query) s.checked
  matched := matched
  metric := some metric

/-- `update` comes to the renderer, whether that throws or not. -/
theorem endState_update {matched : List σ} {metric : μ}
    (hmetric : site.metrics[s.page.query.metric.position]? = some metric)
    (hmatched : queryMatches site.prop site.scenarios (s.page.query.map JSNumber.position) =
      .ok matched) :
    endState ((update numbers site renderer).run s) = rendered numbers s matched metric := by
  -- Neither the address nor the active link matters to the elements of the page.
  have helements : ∀ hash activeMetric,
      { s with hash, activeMetric }.elementById = s.elementById := fun _ _ =>
    PageState.elementById_of_eq rfl rfl
  have hhash : ∀ hash, { s with hash }.elementById = s.elementById := fun _ =>
    PageState.elementById_of_eq rfl rfl
  simp only [update, EStateM.run_bind, EStateM.run_modify, EStateM.run_get, hmetric, hmatched,
    fromExcept, EStateM.run_pure, hhash, helements]
  split <;> rfl

section Rendered

variable {matched : List σ} {metric : μ}

theorem rendered_page : (rendered numbers s matched metric).page = s.page := by rw [rendered]

theorem rendered_labels : (rendered numbers s matched metric).labels = s.labels := by rw [rendered]

/-- In the state in which the renderer is called, the checkboxes are those of the query. -/
theorem rendered_checked (h : HasQuery site s q) (a : ScenarioAttribute) (i : ℕ) :
    (rendered numbers s matched metric).checked a i = true ↔
      i ∈ (q.selections a).map Subtype.val := by
  rw [rendered, h.query,
    foldl_checkSelected_iff fun a k => elementById_boxId h.links h.boxes]
  constructor
  · rintro (hbefore | ⟨-, -, hmem⟩)
    · exact h.checked a i hbefore
    · exact hmem
  · intro hmem
    obtain ⟨n, hn, rfl⟩ := List.mem_map.1 hmem
    exact .inr ⟨mem_scenarioAttributes a, h.selects.inRange a n hn, hmem⟩

end Rendered

/-- **What `update` does** with a query that it can show. -/
theorem run_update (h : HasQuery site s q) :
    ShowsQuery numbers site (endState ((update numbers site renderer).run s)) q ∧
      (endState ((update numbers site renderer).run s)).page = s.page := by
  obtain ⟨matched, hmatched, hinOrder⟩ := exists_queryMatches h
  obtain ⟨metric, hmetric⟩ : ∃ metric, site.metrics[q.metric.1]? = some metric :=
    ⟨_, List.getElem?_eq_getElem h.metric⟩
  have hposition : s.page.query.metric.position = q.metric.1 := by
    rw [h.query]
    exact JSNumber.position_ofNatural q.metric
  have hpositions : s.page.query.map JSNumber.position = q.map Subtype.val := by
    rw [h.query]
    exact q.positions_map
  rw [endState_update (by rw [hposition, hmetric]) (by rw [hpositions, hmatched])]
  refine ⟨⟨⟨?_, ?_, ?_, ?_, h.metric, ?_, ?_, ?_⟩, ?_, ?_, ?_, rendered_checked h, ?_, ?_, ?_⟩,
    rendered_page⟩
  · rw [rendered]
    exact h.links
  · rw [rendered]
    exact h.boxes
  · rw [rendered_page, h.query]
  · rw [rendered_page]
    exact h.dataType
  · rw [rendered_labels]
    exact h.labels
  · rw [rendered_labels]
    exact h.selects
  · exact fun a i => (rendered_checked h a i).1
  · rw [rendered_page, rendered]
  · rw [rendered, h.query]
    show activeLink (s.elementById (metricId (numbers.toText (.ofNatural q.metric)))) = _
    rw [numbers.toText_ofNatural, elementById_metricId h.links h.metric]
    rfl
  · rw [rendered, hmetric]
  · rw [hmatched, rendered]
  · rw [rendered_labels]
    exact perm_of_filter_eq hinOrder
  · rw [rendered_labels]
    exact hinOrder

/-! ### Opening the page -/

/-- What was set for one attribute and then for others is set for all of them. -/
theorem ite_update_attributes {β : Type} (f g : ScenarioAttribute → β) (a : ScenarioAttribute)
    (attributes : List ScenarioAttribute) :
    (fun a' => if a' ∈ attributes then f a' else Function.update g a (f a) a') =
      fun a' => if a' ∈ a :: attributes then f a' else g a' := by
  funext a'
  by_cases ha : a' = a
  · subst ha
    simp
  · simp [ha]

theorem run_makeFilters {keys : ScenarioAttribute → List JSString}
    (hkeys : ∀ a, attributeKeys site.prop site.scenarios a = .ok (keys a))
    (attributes : List ScenarioAttribute) (s : PageState Ω μ σ) :
    (forM attributes (makeFilters templates site)).run s =
      .ok ⟨⟩ { s with
        labels := fun a => if a ∈ attributes then keys a else s.labels a
        boxes := fun a => if a ∈ attributes then templates.filter a (keys a) else s.boxes a } := by
  induction attributes generalizing s with
  | nil => rfl
  | cons a attributes ih =>
    simp only [List.forM_cons, EStateM.run_bind, makeFilters, hkeys, fromExcept, EStateM.run_pure,
      EStateM.run_modify, ih]
    rw [ite_update_attributes, ite_update_attributes]

/-- The page is made of texts that are plain. -/
structure MadeFor (templates : Templates) (site : Site μ σ)
    (keys : ScenarioAttribute → List JSString) : Prop where
  sidebar : templates.sidebar (site.metrics.map site.name) = linksTo site.metrics.length
  filter : ∀ a, templates.filter a (keys a) = boxesFor a (keys a).length
  keys : ∀ a, attributeKeys site.prop site.scenarios a = .ok (keys a)

/-- **What `load` does**, if a query can be read that `update` can show. -/
theorem run_load {dataType : JSString} {keys : ScenarioAttribute → List JSString}
    (hmade : MadeFor templates site keys)
    (hdecode : (blankPage s.hash : PageState Ω μ σ).page.decode numbers (some s.hash) =
      ⟨q.map .ofNatural, dataType⟩)
    (hdataType : dataType ∈ dataTypes) (hmetric : q.metric.1 < site.metrics.length)
    (hselects : SelectsLabels keys q) :
    ShowsQuery numbers site (endState ((load numbers templates site renderer).run s)) q ∧
      (endState ((load numbers templates site renderer).run s)).page.dataType = dataType := by
  have hall {β : Type} (f g : ScenarioAttribute → β) :
      (fun a => if a ∈ scenarioAttributes then f a else g a) = f := by
    funext a
    exact if_pos (mem_scenarioAttributes a)
  have hload : (load numbers templates site renderer).run s = (update numbers site renderer).run
      { (blankPage s.hash : PageState Ω μ σ) with
        links := templates.sidebar (site.metrics.map site.name)
        labels := keys, boxes := fun a => templates.filter a (keys a)
        page := ⟨q.map .ofNatural, dataType⟩ } := by
    simp only [load, makeSidebar, EStateM.run_bind, EStateM.run_modify,
      run_makeFilters hmade.keys, hall]
    show (update numbers site renderer).run { (blankPage s.hash : PageState Ω μ σ) with
      links := templates.sidebar (site.metrics.map site.name)
      labels := keys, boxes := fun a => templates.filter a (keys a)
      page := (blankPage s.hash : PageState Ω μ σ).page.decode numbers (some s.hash) } = _
    rw [hdecode]
  rw [hload]
  have hquery : HasQuery site ({ (blankPage s.hash : PageState Ω μ σ) with
      links := templates.sidebar (site.metrics.map site.name)
      labels := keys, boxes := fun a => templates.filter a (keys a)
      page := ⟨q.map .ofNatural, dataType⟩ } : PageState Ω μ σ) q :=
    ⟨hmade.sidebar, hmade.filter, rfl, hdataType, hmetric, hmade.keys, hselects, fun _ _ => nofun⟩
  exact ⟨(run_update hquery).1, by rw [(run_update hquery).2]⟩

/-- A page that is opened without a query. -/
theorem run_load_empty {keys : ScenarioAttribute → List JSString}
    (hmade : MadeFor templates site keys)
    (hmetrics : 0 < site.metrics.length) (hs : s.hash = []) :
    ShowsQuery numbers site (endState ((load numbers templates site renderer).run s))
      ⟨⟨0, by decide⟩, [], [], [], [], [], [], []⟩ := by
  have hdecode : (blankPage s.hash : PageState Ω μ σ).page.decode numbers (some s.hash) =
      ⟨Query.map .ofNatural ⟨⟨0, by decide⟩, [], [], [], [], [], [], []⟩,
        codeUnits "overtime"⟩ := by
    rw [hs]
    rfl
  refine (run_load hmade hdecode List.mem_cons_self hmetrics ⟨fun a i hi => ?_, fun a => ?_⟩).1
  · cases a <;> exact absurd hi List.not_mem_nil
  · cases a <;> exact List.nodup_nil

theorem notMem_of_mem_dataTypes {dataType : JSString} (h : dataType ∈ dataTypes) :
    codeUnit '_' ∉ dataType := by
  revert dataType
  decide

/-- **A page that is opened at the address of another one** shows what that one shows, in every
part. -/
theorem run_load_of_showsQuery (hmade : MadeFor templates site s.labels)
    (h : ShowsQuery numbers site s q) :
    endState ((load numbers templates site renderer).run s) = s := by
  have hpage : s.page = ⟨q.map .ofNatural, s.page.dataType⟩ := by rw [← h.query]
  have hdecode : (blankPage s.hash : PageState Ω μ σ).page.decode numbers (some s.hash) =
      ⟨q.map .ofNatural, s.page.dataType⟩ := by
    rw [h.hash, hpage]
    simp only [Page.decode, if_neg Page.trimWhiteSpace_encode,
      Page.splitOn_encode (notMem_of_mem_dataTypes h.dataType)]
    simp only [pieces, Query.map, List.zipIdx_cons, List.zipIdx_nil, List.foldl_cons,
      List.foldl_nil, Page.assign, decodeArray_encodeArray, numbers.toText_ofNatural,
      numbers.parseInt_decimal]
  have hload : ShowsQuery numbers site (endState ((load numbers templates site renderer).run s)) q ∧
      (endState ((load numbers templates site renderer).run s)).page.dataType = s.page.dataType :=
    run_load hmade hdecode h.dataType h.metric h.selects
  exact hload.1.ext h hload.2

/-! ### Clicking -/

theorem run_metricClicked (h : ShowsQuery numbers site s q) {index : SafeNatural}
    (hindex : index.1 < site.metrics.length) :
    ShowsQuery numbers site
      (endState ((handle numbers templates site renderer (.metricClicked index)).run s))
      { q with metric := index } := by
  have hselections : ∀ a, ({ q with metric := index } : Query SafeNatural).selections a =
      q.selections a := by
    intro a
    cases a <;> rfl
  have hhandler : s.links[index.1]?.bind PageElement.handler = some index := by
    rw [h.links]
    exact handler_linksTo hindex
  simp only [handle, EStateM.run_bind, EStateM.run_get, hhandler, EStateM.run_modify]
  refine (run_update ?_).1
  refine ⟨h.links, h.boxes, ?_, h.dataType, hindex, h.labels, ⟨fun a => ?_, fun a => ?_⟩,
    fun a => ?_⟩
  · simp only [h.query]
    rfl
  · rw [hselections]
    exact h.selects.inRange a
  · rw [hselections]
    exact h.selects.nodup a
  · rw [hselections]
    exact h.checked a

theorem run_dataTypeChanged (h : ShowsQuery numbers site s q) {value : JSString}
    (hvalue : value ∈ dataTypes) :
    ShowsQuery numbers site
      (endState ((handle numbers templates site renderer (.dataTypeChanged value)).run s)) q := by
  simp only [handle, EStateM.run_bind, EStateM.run_modify]
  refine (run_update ?_).1
  exact ⟨h.links, h.boxes, h.query, hvalue, h.metric, h.labels, h.selects, h.checked⟩

/-- The selections for an attribute when a checkbox was turned over. -/
def toggled (selections : List SafeNatural) (index : SafeNatural) : List SafeNatural :=
  if index ∈ selections then selections.erase index else selections ++ [index]

theorem mem_toggled {selections : List SafeNatural} {index n : SafeNatural}
    (h : selections.Nodup) :
    n ∈ toggled selections index ↔ if n = index then index ∉ selections else n ∈ selections := by
  rw [toggled]
  by_cases hn : n = index
  · subst hn
    by_cases hmem : n ∈ selections
    · simp [hmem, h.mem_erase_iff]
    · simp [hmem]
  · by_cases hmem : index ∈ selections
    · simp [hmem, hn, h.mem_erase_iff]
    · simp [hmem, hn]

theorem nodup_toggled {selections : List SafeNatural} (index : SafeNatural)
    (h : selections.Nodup) : (toggled selections index).Nodup := by
  rw [toggled]
  split
  · exact h.erase index
  · next hmem => exact List.nodup_append.2 ⟨h, List.nodup_singleton index, by
      rintro n hn m hm rfl
      exact hmem (List.mem_singleton.1 hm ▸ hn)⟩

theorem checked_eq_decide (h : ShowsQuery numbers site s q) (property : ScenarioAttribute)
    (index : SafeNatural) :
    s.checked property index = decide (index ∈ q.selections property) := by
  rw [Bool.eq_iff_iff, h.checkedSelections, decide_eq_true_eq, List.mem_map]
  constructor
  · rintro ⟨n, hn, hval⟩
    exact Subtype.ext hval ▸ hn
  · exact fun hmem => ⟨index, hmem, rfl⟩

/-- A checkbox that is checked after the browser has turned one over. -/
theorem mem_of_turnOver (h : ShowsQuery numbers site s q) {property a : ScenarioAttribute}
    {index : SafeNatural} {i : ℕ} (hi : turnOver s.checked property index a i = true) :
    i ∈ ((q.setSelections (toggled (q.selections property) index) property).selections a).map
      Subtype.val := by
  rw [Query.selections_setSelections]
  split
  · next ha =>
    subst ha
    rw [turnOver, Function.update_self] at hi
    by_cases hindex : i = index.1
    · subst hindex
      rw [Function.update_self, checked_eq_decide h, Bool.not_eq_true',
        decide_eq_false_iff_not] at hi
      exact List.mem_map_of_mem ((mem_toggled (h.selects.nodup _)).2 (by rwa [if_pos rfl]))
    · rw [Function.update_of_ne hindex] at hi
      obtain ⟨n, hn, rfl⟩ := List.mem_map.1 (h.checked a i hi)
      refine List.mem_map_of_mem ((mem_toggled (h.selects.nodup _)).2 ?_)
      rwa [if_neg fun hne => hindex (congrArg Subtype.val hne)]
  · next ha =>
    rw [turnOver, Function.update_of_ne ha] at hi
    exact h.checked a i hi

/-- **A checkbox is turned over**, and with it the selection of its value. -/
theorem run_filterChecked (h : ShowsQuery numbers site s q) {index : SafeNatural}
    {property : ScenarioAttribute} (hindex : index.1 < (s.labels property).length) :
    ShowsQuery numbers site
      (endState ((handle numbers templates site renderer (.filterChecked index property)).run s))
      (q.setSelections (toggled (q.selections property) index) property) := by
  have hturned : turnOver s.checked property index property index =
      !decide (index ∈ q.selections property) := by
    rw [turnOver, Function.update_self, Function.update_self, checked_eq_decide h]
  have hhandler : (s.boxes property)[index.1]?.bind PageElement.handler =
      some (index, property) := by
    rw [h.boxes]
    exact handler_boxesFor hindex
  simp only [handle, EStateM.run_bind, EStateM.run_modify, EStateM.run_get, hhandler]
  refine (run_update ?_).1
  refine ⟨h.links, h.boxes, ?_, h.dataType, ?_, h.labels, ⟨fun a n hn => ?_, fun a => ?_⟩,
    fun a i => mem_of_turnOver h⟩
  · simp only [h.query, hturned, Query.selections_map, addIfAbsent_map, removeIfExists_map, toggled]
    by_cases hmem : index ∈ q.selections property
    · simp [hmem, Query.setSelections_map]
    · simp [hmem, ← Query.setSelections_map]
  · rw [Query.metric_setSelections]
    exact h.metric
  · rw [Query.selections_setSelections] at hn
    split at hn
    · next ha =>
      subst ha
      rw [mem_toggled (h.selects.nodup _)] at hn
      split at hn
      · next hn' => exact hn' ▸ hindex
      · exact h.selects.inRange _ n hn
    · exact h.selects.inRange a n hn
  · rw [Query.selections_setSelections]
    split
    · exact nodup_toggled index (h.selects.nodup _)
    · exact h.selects.nodup a

end Shown

/-! ### The page over time -/

section Reachable

variable (numbers : Numbers Ω) (templates : Templates) (site : Site μ σ)
  (renderer : PageState Ω μ σ → Option JSError)

/-- The states of a page that was opened without a query. -/
inductive PageReachable : PageState Ω μ σ → Prop
  | opened :
    PageReachable (endState ((load numbers templates site renderer).run (blankPage [])))
  | handled {s : PageState Ω μ σ} (h : PageReachable s) {event : PageEvent}
    (hevent : event.Possible s) :
    PageReachable (endState ((handle numbers templates site renderer event).run s))

/-- A query is shown, and another page at the same address is the same. -/
def Shows (s : PageState Ω μ σ) : Prop :=
  (∃ q, ShowsQuery numbers site s q) ∧ ∀ t : PageState Ω μ σ, t.hash = s.hash →
    endState ((load numbers templates site renderer).run t) = s

variable {numbers templates site renderer} (htemplates : templates.Sound) (hplain : site.IsPlain)

include htemplates hplain

theorem madeFor {keys : ScenarioAttribute → List JSString}
    (hkeys : ∀ a, attributeKeys site.prop site.scenarios a = .ok (keys a)) :
    MadeFor templates site keys := by
  refine ⟨?_, fun a => htemplates.filter a _ fun label hlabel => ?_, hkeys⟩
  · rw [htemplates.sidebar, List.length_map]
    intro name hname
    obtain ⟨metric, hmetric, rfl⟩ := List.mem_map.1 hname
    exact hplain.names metric hmetric
  · obtain ⟨keys', hkeys', -, hmem⟩ := attributeKeys_eq_ok (notMem_of_attributeKeys (hkeys a))
    rw [Except.ok.inj ((hkeys a).symm.trans hkeys'), hmem] at hlabel
    obtain ⟨scenario, hscenario, rfl⟩ := List.mem_map.1 hlabel
    exact hplain.labels scenario hscenario a

theorem ShowsQuery.shows {s : PageState Ω μ σ} {q : Query SafeNatural}
    (h : ShowsQuery numbers site s q) : Shows numbers templates site renderer s := by
  refine ⟨⟨q, h⟩, fun t ht => ?_⟩
  have hload : (load numbers templates site renderer).run t =
      (load numbers templates site renderer).run s := by
    simp only [load, EStateM.run_bind, EStateM.run_modify, ht]
  rw [hload]
  exact run_load_of_showsQuery (madeFor htemplates hplain h.labels) h

/-- What a user does is shown. -/
theorem ShowsQuery.handled {s : PageState Ω μ σ} {q : Query SafeNatural}
    (h : ShowsQuery numbers site s q) {event : PageEvent} (hevent : event.Possible s) :
    ∃ q, ShowsQuery numbers site
      (endState ((handle numbers templates site renderer event).run s)) q := by
  cases event with
  | metricClicked index =>
    refine ⟨_, run_metricClicked h ?_⟩
    have hindex : index.1 < s.links.length := hevent
    rwa [h.links, linksTo, List.length_map, List.length_range] at hindex
  | filterChecked index property =>
    refine ⟨_, run_filterChecked h ?_⟩
    have hindex : index.1 < (s.boxes property).length := hevent
    rwa [h.boxes, boxesFor, List.length_map, List.length_range] at hindex
  | dataTypeChanged value => exact ⟨_, run_dataTypeChanged h hevent⟩
  | reload =>
    refine ⟨q, ?_⟩
    show ShowsQuery numbers site (endState ((load numbers templates site renderer).run s)) q
    rw [run_load_of_showsQuery (madeFor htemplates hplain h.labels) h]
    exact h

/-- **The page always shows its query**, if its texts are plain, exactly if there is a metric and no
attribute of a scenario is the name of a property of `Object.prototype`. -/
theorem page_shows_iff :
    (∀ s, PageReachable numbers templates site renderer s →
        Shows numbers templates site renderer s) ↔
      site.metrics ≠ [] ∧
        ∀ scenario ∈ site.scenarios, ∀ a, site.prop scenario a ∉ inheritedProperties := by
  constructor
  · intro h
    obtain ⟨⟨q, hq⟩, -⟩ := h _ .opened
    refine ⟨?_, fun scenario hscenario a => notMem_of_attributeKeys (hq.labels a) _ hscenario⟩
    exact List.ne_nil_of_length_pos (lt_of_le_of_lt (Nat.zero_le _) hq.metric)
  · rintro ⟨hmetrics, hinherited⟩ s hs
    choose keys hkeys using fun a =>
      attributeKeys_eq_ok (a := a) fun scenario hscenario => hinherited scenario hscenario a
    have hshows : ∃ q, ShowsQuery numbers site s q := by
      induction hs with
      | opened =>
        exact ⟨_, run_load_empty (madeFor htemplates hplain fun a => (hkeys a).1)
          (List.length_pos_of_ne_nil hmetrics) rfl⟩
      | handled _ hevent ih =>
        obtain ⟨q, hq⟩ := ih
        exact hq.handled htemplates hplain hevent
    obtain ⟨q, hq⟩ := hshows
    exact hq.shows htemplates hplain

end Reachable

/-- One metric and two scenarios, which differ in their churn. -/
def twoChurns : Site JSString JSString where
  metrics := [codeUnits "ring_size"]
  name := id
  scenarios := [codeUnits "Light", codeUnits "Heavy"]
  prop churn
    | .churn => churn
    | _ => codeUnits "5 minutes"

/-- What is made of plain texts, of all texts. -/
def plainTemplates : Templates where
  sidebar names := linksTo names.length
  filter a labels := boxesFor a labels.length

/-- All the other numbers are `NaN`. -/
def nanOnly : Numbers Unit := ⟨(), fun _ => (), fun _ => codeUnits "NaN"⟩

/-- The page when it was opened and the checkbox of the second churn was turned over. -/
def secondChurnSelected : PageState Unit JSString JSString :=
  endState ((handle nanOnly plainTemplates twoChurns (fun _ => none)
    (.filterChecked ⟨1, Nat.one_lt_two_pow (Nat.succ_ne_zero 52)⟩ .churn)).run
      (endState ((load nanOnly plainTemplates twoChurns (fun _ => none)).run (blankPage []))))

theorem page_shows_secondChurnSelected :
    Shows nanOnly plainTemplates twoChurns (fun _ => none) secondChurnSelected := by
  have hplain : twoChurns.IsPlain := by
    refine ⟨by decide, fun scenario hscenario a => ?_⟩
    revert scenario
    cases a <;> decide
  have hsound : plainTemplates.Sound := ⟨fun _ _ => rfl, fun _ _ _ => rfl⟩
  have hinherited : ∀ scenario ∈ twoChurns.scenarios, ∀ a,
      twoChurns.prop scenario a ∉ inheritedProperties := by
    intro scenario hscenario a
    revert scenario
    cases a <;> decide
  have hopened : PageReachable nanOnly plainTemplates twoChurns (fun _ => none)
      (endState ((load nanOnly plainTemplates twoChurns (fun _ => none)).run (blankPage []))) :=
    .opened
  refine (page_shows_iff hsound hplain).2 ⟨by decide, hinherited⟩ _ (hopened.handled ?_)
  show 1 < List.length _
  decide +kernel

end Shabdiz
