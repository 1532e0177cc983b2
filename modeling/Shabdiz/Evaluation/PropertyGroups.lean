import Shabdiz.Evaluation.Analysers
import Shabdiz.Evaluation.CombinedStatistics
import Shabdiz.Text.Split
import Shabdiz.Util.LinkedHashMap
import Shabdiz.Util.Loops

/-!
# Statistics by groups of properties

`getPropertyStatistics` collects a value of every successful experiment under a key that is made of
the values of some properties: each is written with a delimiter after it, and `null` where there is
no value. The analysers take these keys apart again, at the same delimiter.

Nothing is done about a value in which the delimiter is, so experiments of different groups may come
under one key, and `String.split` does not give back the empty values at the end.

## Main definitions

* `getPropertyStatistics`, `groupKey` — the code
* `TimeToReachStatePerNetworkSizeAnalyzer.getDataset` — one of the analysers
* `ContributesTo` — the properties that add a sample to the statistics under a key
* `GroupsFaithfully` — one key for one group, from which its values can be read
* `Recoverable` — values that are there and can be taken apart

## Main results

* `get_getPropertyStatistics` — the samples under a key
* `splitFields_groupKey` — values that can be taken apart
* `groupsFaithfully_iff` — when grouping is faithful
* `TimeToReachStatePerNetworkSizeAnalyzer.exists_getDataset` — what is then in the dataset
-/

namespace Shabdiz

variable {D : Type}

/-! ### The code -/

/-- `Properties`, as what `getProperty` returns. -/
abbrev ExperimentProperties := List Char → Option (List Char)

/-- What a reading is turned into before it is added up. -/
abbrev NumberConverter (D : Type) := Number D → Number D

/-- `Map<String, Statistics>`, with the samples that were added. -/
abbrev GroupedStatistics (D : Type) := LinkedHashMap (List Char) (List (Number D))

/-- The experiment says that it succeeded; one that says nothing failed. -/
def isSuccessful (properties : ExperimentProperties) : Bool :=
  (properties "status".toList).getD "FAILURE".toList = "SUCCESS".toList

/-- What separates the values of a group name. -/
def groupDelimiter : Char := '@'

/-- `Double.parseDouble` of what `getProperty` returned. -/
def parseDoubleOf (parseDouble : List Char → Except AnalysisError D) :
    Option (List Char) → Except AnalysisError D
  | none => throw .nullPointer
  | some propertyAsString => parseDouble propertyAsString

/-- What the loop over the groups builds: `append` writes `null` as a text. -/
def groupKey (groupByProperty : List (List Char)) (properties : ExperimentProperties) : List Char :=
  terminated groupDelimiter
    (groupByProperty.map fun group => (properties group).getD "null".toList)

/-- The loop over the properties: a sample is added to the statistics that there are under a key, or
to new ones. -/
def addProperties (parseDouble : List Char → Except AnalysisError D) (propertyKey : List Char)
    (converter : NumberConverter D) (groupByProperty : List (List Char))
    (statisticsMap : GroupedStatistics D) (properties : ExperimentProperties) :
    Except AnalysisError (GroupedStatistics D) :=
  if isSuccessful properties then do
    let property ← parseDoubleOf parseDouble (properties propertyKey)
    let key := groupKey groupByProperty properties
    let statistics := (statisticsMap.get key).getD []
    pure (statisticsMap.put key (statistics ++ [converter (.double property)]))
  else pure statisticsMap

/-- The statistics of one property over all experiments, group by group. -/
def getPropertyStatistics (parseDouble : List Char → Except AnalysisError D)
    (propertyKey : List Char) (propertiesCollection : List ExperimentProperties)
    (converter : NumberConverter D) (groupByProperty : List (List Char)) :
    Except AnalysisError (GroupedStatistics D) :=
  propertiesCollection.foldlM (addProperties parseDouble propertyKey converter groupByProperty)
    .empty

/-- The value of any number as a `double`. -/
def Number.doubleValue [IntCast D] : Number D → D
  | .double d => d
  | .integer i => i
  | .long l => (l.toInt : ℤ)

/-- `NANOSECOND_TO_SECOND`. -/
def nanosecondToSecond [IntCast D] [Div D] : NumberConverter D := fun value =>
  .double (value.doubleValue / (1000000000 : ℤ))

namespace TimeToReachStatePerNetworkSizeAnalyzer

/-- The property that names the manager of an experiment. -/
def managerProperty : List Char := "manager".toList

/-- The property that holds the size of the network. -/
def networkSizeProperty : List Char := "network_size".toList

/-- The properties that experiments are grouped by. -/
def groupByProperty : List (List Char) := [managerProperty, networkSizeProperty]

/-- `groups[i]`. -/
def groupAt (groups : List (List Char)) (i : ℕ) : Except AnalysisError (List Char) :=
  match groups[i]? with
  | some group => .ok group
  | none => .error .indexOutOfBounds

/-- What is added to the dataset for an entry. -/
def addEntry (lib : AnalysisLibrary D) (entry : List Char × List (Number D)) :
    Except AnalysisError (DatasetEntry D) := do
  let groups := splitFields groupDelimiter entry.1
  let manager ← decorateManagerAsApplicationName lib (some (← groupAt groups 0))
  let networkSize ← groupAt groups 1
  pure ⟨lib.mean entry.2, lib.confidenceInterval95Percent entry.2, manager, networkSize⟩

/-- `getDataset`, as what is added. -/
def getDataset [Div D] [IntCast D] (lib : AnalysisLibrary D)
    (parseDouble : List Char → Except AnalysisError D) (durationProperty : List Char)
    (experimentProperties : List ExperimentProperties) :
    Except AnalysisError (List (DatasetEntry D)) := do
  let statsByApplication ← getPropertyStatistics parseDouble durationProperty experimentProperties
    nanosecondToSecond groupByProperty
  statsByApplication.entries.mapM (addEntry lib)

end TimeToReachStatePerNetworkSizeAnalyzer

/-! ### Contributions -/

/-- The statistics under a key when the loop has gone through the first `i` properties. -/
def statisticsAfter (parseDouble : List Char → Except AnalysisError D) (propertyKey : List Char)
    (propertiesCollection : List ExperimentProperties) (converter : NumberConverter D)
    (groupByProperty : List (List Char)) (i : ℕ) (key : List Char) : Option (List (Number D)) :=
  (getPropertyStatistics parseDouble propertyKey (propertiesCollection.take i) converter
    groupByProperty).toOption.bind (·.get key)

/-- The properties at an index contribute to the statistics under a key: these are others when the
loop has gone through the properties. -/
def ContributesTo (parseDouble : List Char → Except AnalysisError D) (propertyKey : List Char)
    (propertiesCollection : List ExperimentProperties) (converter : NumberConverter D)
    (groupByProperty : List (List Char)) (i : ℕ) (key : List Char) : Prop :=
  statisticsAfter parseDouble propertyKey propertiesCollection converter groupByProperty (i + 1)
      key ≠
    statisticsAfter parseDouble propertyKey propertiesCollection converter groupByProperty i key

instance [DecidableEq D] (parseDouble : List Char → Except AnalysisError D)
    (propertyKey : List Char) (propertiesCollection : List ExperimentProperties)
    (converter : NumberConverter D) (groupByProperty : List (List Char)) (i : ℕ)
    (key : List Char) : Decidable (ContributesTo parseDouble propertyKey propertiesCollection
      converter groupByProperty i key) := inferInstanceAs (Decidable (_ ≠ _))

/-- Given which properties contribute to the statistics under which of some keys: successful ones
contribute to the same exactly if they agree on the values of all groups, others contribute to none,
and what a key is split into are the values of properties that contribute to it. -/
structure GroupsFaithfully (propertiesCollection : List ExperimentProperties)
    (groupByProperty keys : List (List Char)) (contributesTo : ℕ → List Char → Prop) : Prop where
  same : ∀ (i j : ℕ) (p q : ExperimentProperties), propertiesCollection[i]? = some p →
    propertiesCollection[j]? = some q → isSuccessful p = true → isSuccessful q = true →
    ((∃ key, contributesTo i key ∧ contributesTo j key) ↔ ∀ group ∈ groupByProperty,
      p group = q group)
  unsuccessful : ∀ (i : ℕ) (p : ExperimentProperties), propertiesCollection[i]? = some p →
    isSuccessful p = false → ∀ key, ¬ contributesTo i key
  recovered : ∀ key ∈ keys, ∃ (i : ℕ) (p : ExperimentProperties),
    propertiesCollection[i]? = some p ∧ contributesTo i key ∧
      (splitFields groupDelimiter key).map some = groupByProperty.map p

section Contributions

variable {parseDouble : List Char → Except AnalysisError D} {propertyKey : List Char}
  {propertiesCollection : List ExperimentProperties} {converter : NumberConverter D}
  {groupByProperty : List (List Char)} {statisticsMap after : GroupedStatistics D}
  {properties : ExperimentProperties} {key : List Char}

/-- What the loop does with properties. -/
theorem addProperties_cases
    (h : addProperties parseDouble propertyKey converter groupByProperty statisticsMap properties =
      .ok after) :
    isSuccessful properties = false ∧ after = statisticsMap ∨
      isSuccessful properties = true ∧ ∃ property,
        parseDoubleOf parseDouble (properties propertyKey) = .ok property ∧
        after = statisticsMap.put (groupKey groupByProperty properties)
          ((statisticsMap.get (groupKey groupByProperty properties)).getD [] ++
            [converter (.double property)]) := by
  rw [addProperties] at h
  split at h
  · next hsuccess =>
    obtain ⟨property, hproperty, hafter⟩ := bind_eq_ok_iff.mp h
    exact .inr ⟨hsuccess, property, hproperty, (Except.ok.inj hafter).symm⟩
  · next hsuccess => exact .inl ⟨Bool.eq_false_iff.mpr hsuccess, (Except.ok.inj h).symm⟩

/-- A value is added under one key, and nothing is changed under others. -/
theorem get_addProperties_ne_iff
    (h : addProperties parseDouble propertyKey converter groupByProperty statisticsMap properties =
      .ok after) :
    after.get key ≠ statisticsMap.get key ↔
      isSuccessful properties = true ∧ groupKey groupByProperty properties = key := by
  obtain ⟨hsuccess, rfl⟩ | ⟨hsuccess, property, -, rfl⟩ := addProperties_cases h
  · simp [hsuccess]
  · rw [LinkedHashMap.get_put]
    by_cases hkey : key = groupKey groupByProperty properties
    · subst hkey
      rw [if_pos rfl]
      refine iff_of_true (fun heq => ?_) ⟨hsuccess, rfl⟩
      -- The statistics have a sample more than there were.
      rw [← heq] at heq
      have hlength := congrArg (fun statistics => (statistics.getD []).length) heq
      simp at hlength
    · rw [if_neg hkey]
      simp [Ne.symm hkey]

/-- The loop through the first properties of a collection that it comes to the end of. -/
theorem exists_getPropertyStatistics_take
    (h : getPropertyStatistics parseDouble propertyKey propertiesCollection converter
      groupByProperty = .ok statisticsMap) (i : ℕ) :
    ∃ before, getPropertyStatistics parseDouble propertyKey (propertiesCollection.take i) converter
      groupByProperty = .ok before := by
  rw [getPropertyStatistics, ← List.take_append_drop i propertiesCollection,
    List.foldlM_append] at h
  obtain ⟨before, hbefore, -⟩ := bind_eq_ok_iff.mp h
  exact ⟨before, hbefore⟩

/-- **Who contributes**: successful properties, to the statistics under their key. -/
theorem contributesTo_iff
    (h : getPropertyStatistics parseDouble propertyKey propertiesCollection converter
      groupByProperty = .ok statisticsMap) {i : ℕ}
    (hi : propertiesCollection[i]? = some properties) :
    ContributesTo parseDouble propertyKey propertiesCollection converter groupByProperty i key ↔
      isSuccessful properties = true ∧ groupKey groupByProperty properties = key := by
  obtain ⟨before, hbefore⟩ := exists_getPropertyStatistics_take h i
  obtain ⟨after, hafter⟩ := exists_getPropertyStatistics_take h (i + 1)
  have hround : addProperties parseDouble propertyKey converter groupByProperty before properties =
      .ok after := by
    rw [getPropertyStatistics] at hbefore hafter
    rw [List.take_add_one, hi, Option.toList_some, List.foldlM_append, hbefore] at hafter
    exact (bind_pure _).symm.trans hafter
  rw [ContributesTo, statisticsAfter, statisticsAfter, hbefore, hafter]
  exact get_addProperties_ne_iff hround

/-- **The keys of the map** are those of the successful properties. -/
theorem mem_keys_getPropertyStatistics
    (h : getPropertyStatistics parseDouble propertyKey propertiesCollection converter
      groupByProperty = .ok statisticsMap) :
    key ∈ statisticsMap.keys ↔
      ∃ p ∈ propertiesCollection, isSuccessful p = true ∧ groupKey groupByProperty p = key := by
  have hrounds := rounds_of_foldlM_eq_ok h
  have hround : ∀ (before : GroupedStatistics D) (p : ExperimentProperties)
      (after : GroupedStatistics D),
      addProperties parseDouble propertyKey converter groupByProperty before p = .ok after →
      (key ∈ after.keys ↔
        key ∈ before.keys ∨ isSuccessful p = true ∧ groupKey groupByProperty p = key) := by
    intro before p after hround
    obtain ⟨hsuccess, rfl⟩ | ⟨hsuccess, property, -, rfl⟩ := addProperties_cases hround
    · simp [hsuccess]
    · rw [LinkedHashMap.keys_put]
      split
      · next hmem =>
        refine ⟨.inl, ?_⟩
        rintro (hkey | ⟨-, rfl⟩)
        · exact hkey
        · exact hmem
      · simp [hsuccess, eq_comm]
  constructor
  · refine hrounds.invariant (I := fun map => key ∈ map.keys → ∃ p ∈ propertiesCollection,
      isSuccessful p = true ∧ groupKey groupByProperty p = key) ?_ ?_
    · intro before p after hp ih hadd hkey
      obtain hkey | hkey := (hround before p after hadd).mp hkey
      · exact ih hkey
      · exact ⟨p, hp, hkey⟩
    · exact fun hkey => absurd hkey List.not_mem_nil
  · rintro ⟨p, hp, hsuccess⟩
    exact hrounds.establishes (I := fun _ => True) hp (fun _ _ _ _ _ => trivial)
      (fun before after _ hadd => (hround before p after hadd).mpr (.inr hsuccess))
      (fun before q after hkey hadd => (hround before q after hadd).mpr (.inl hkey)) trivial

/-- The value of properties, as a sample. -/
def sampleOf (parseDouble : List Char → Except AnalysisError D) (propertyKey : List Char)
    (converter : NumberConverter D) (properties : ExperimentProperties) : Option (Number D) :=
  (parseDoubleOf parseDouble (properties propertyKey)).toOption.map fun property =>
    converter (.double property)

/-- The samples of the successful properties with a key. -/
def samplesUnder (parseDouble : List Char → Except AnalysisError D) (propertyKey : List Char)
    (propertiesCollection : List ExperimentProperties) (converter : NumberConverter D)
    (groupByProperty : List (List Char)) (key : List Char) : List (Number D) :=
  (propertiesCollection.filter fun p =>
    isSuccessful p && groupKey groupByProperty p = key).filterMap
      (sampleOf parseDouble propertyKey converter)

theorem get_addProperties
    (h : addProperties parseDouble propertyKey converter groupByProperty statisticsMap properties =
      .ok after) :
    after.get key = extend (statisticsMap.get key)
      (samplesUnder parseDouble propertyKey [properties] converter groupByProperty key) := by
  rw [samplesUnder]
  obtain ⟨hsuccess, rfl⟩ | ⟨hsuccess, property, hproperty, rfl⟩ := addProperties_cases h
  · rw [List.filter_cons_of_neg (by simp [hsuccess])]
    rfl
  · rw [LinkedHashMap.get_put]
    by_cases hkey : key = groupKey groupByProperty properties
    · subst hkey
      have hsample : sampleOf parseDouble propertyKey converter properties =
          some (converter (.double property)) := by
        rw [sampleOf, hproperty]
        rfl
      rw [if_pos rfl, List.filter_cons_of_pos (by simp [hsuccess]), List.filter_nil,
        List.filterMap_cons_some hsample]
      rfl
    · rw [if_neg hkey, List.filter_cons_of_neg (by simp [Ne.symm hkey])]
      rfl

theorem samplesUnder_cons :
    samplesUnder parseDouble propertyKey (properties :: propertiesCollection) converter
        groupByProperty key =
      samplesUnder parseDouble propertyKey [properties] converter groupByProperty key ++
        samplesUnder parseDouble propertyKey propertiesCollection converter groupByProperty
          key := by
  rw [samplesUnder, samplesUnder, samplesUnder, ← List.filterMap_append, ← List.filter_append,
    List.singleton_append]

/-- **The samples under a key**: those of the successful properties with that key, in the order of
the array. -/
theorem get_getPropertyStatistics
    (h : getPropertyStatistics parseDouble propertyKey propertiesCollection converter
      groupByProperty = .ok statisticsMap) :
    statisticsMap.get key = extend none (samplesUnder parseDouble propertyKey propertiesCollection
      converter groupByProperty key) := by
  have hrun : ∀ (collection : List ExperimentProperties) (before after : GroupedStatistics D),
      collection.foldlM (addProperties parseDouble propertyKey converter groupByProperty) before =
        .ok after →
      after.get key = extend (before.get key)
        (samplesUnder parseDouble propertyKey collection converter groupByProperty key) := by
    intro collection
    induction collection with
    | nil =>
      rintro before after hafter
      obtain rfl := Except.ok.inj hafter
      rfl
    | cons p collection ih =>
      intro before after hafter
      obtain ⟨next, hnext, hrest⟩ := bind_eq_ok_iff.mp hafter
      rw [ih next after hrest, get_addProperties hnext, extend_extend, ← samplesUnder_cons]
  exact hrun propertiesCollection .empty statisticsMap h

theorem eq_samplesUnder_of_mem_entries {statistics : List (Number D)}
    (h : getPropertyStatistics parseDouble propertyKey propertiesCollection converter
      groupByProperty = .ok statisticsMap) (hentry : (key, statistics) ∈ statisticsMap.entries) :
    statistics =
      samplesUnder parseDouble propertyKey propertiesCollection converter groupByProperty key := by
  have hget := LinkedHashMap.mem_entries_iff.mp hentry
  rw [get_getPropertyStatistics h] at hget
  cases hsamples : samplesUnder parseDouble propertyKey propertiesCollection converter
      groupByProperty key with
  | nil =>
    rw [hsamples] at hget
    exact absurd hget (by simp [extend])
  | cons sample samples =>
    rw [hsamples] at hget
    exact (Option.some.inj hget).symm

end Contributions

/-! ### Values that can be taken apart -/

/-- The values of all groups are there, none has the delimiter, and the last is not empty. -/
structure Recoverable (groupByProperty : List (List Char)) (properties : ExperimentProperties) :
    Prop where
  present : ∀ group ∈ groupByProperty, ∃ value ∈ properties group, groupDelimiter ∉ value
  last : ∀ group ∈ groupByProperty.getLast?, properties group ≠ some []

instance (groupByProperty : List (List Char)) (properties : ExperimentProperties) :
    Decidable (Recoverable groupByProperty properties) :=
  decidable_of_iff
    ((∀ group ∈ groupByProperty, ∃ value ∈ properties group, groupDelimiter ∉ value) ∧
      ∀ group ∈ groupByProperty.getLast?, properties group ≠ some [])
    ⟨fun h => ⟨h.1, h.2⟩, fun h => ⟨h.present, h.last⟩⟩

section Recoverable

variable {groupByProperty : List (List Char)} {p q : ExperimentProperties}

theorem groupKey_congr (h : ∀ group ∈ groupByProperty, p group = q group) :
    groupKey groupByProperty p = groupKey groupByProperty q := by
  rw [groupKey, groupKey, List.map_congr_left fun group hgroup => by rw [h group hgroup]]

/-- **Values that can be taken apart** are what the key is split into. -/
theorem splitFields_groupKey (hne : groupByProperty ≠ []) (h : Recoverable groupByProperty p) :
    (splitFields groupDelimiter (groupKey groupByProperty p)).map some = groupByProperty.map p := by
  have hvalue : ∀ group ∈ groupByProperty, some ((p group).getD "null".toList) = p group := by
    intro group hgroup
    obtain ⟨value, hmem, -⟩ := h.present group hgroup
    rw [Option.mem_def.mp hmem, Option.getD_some]
  have hfields : ∀ f ∈ groupByProperty.map fun group => (p group).getD "null".toList,
      groupDelimiter ∉ f := by
    intro f hf
    obtain ⟨group, hgroup, rfl⟩ := List.mem_map.mp hf
    obtain ⟨value, hmem, hdelimiter⟩ := h.present group hgroup
    rwa [Option.mem_def.mp hmem, Option.getD_some]
  obtain ⟨groups, last, rfl⟩ := (List.eq_nil_or_concat' groupByProperty).resolve_left hne
  have hlast : (p last).getD "null".toList ≠ [] := by
    intro hempty
    refine h.last last List.getLast?_concat ?_
    rw [← hvalue last (by simp), hempty]
  have hsplit : splitFields groupDelimiter (groupKey (groups ++ [last]) p) =
      (groups ++ [last]).map fun group => (p group).getD "null".toList := by
    rw [List.map_append, List.map_singleton] at hfields ⊢
    refine (splitFields_eq_concat_iff hlast).mpr ⟨⟨1, ?_⟩, hfields⟩
    rw [groupKey, intercalate_concat, List.map_append, terminated_append]
    simp [terminated]
  rw [hsplit, List.map_map]
  exact List.map_congr_left hvalue

/-- Values that a key is split into can be taken apart. -/
theorem recoverable_of_splitFields
    (h : (splitFields groupDelimiter (groupKey groupByProperty p)).map some =
      groupByProperty.map p) : Recoverable groupByProperty p := by
  rcases eq_or_ne groupByProperty [] with rfl | hne
  · exact ⟨by simp, by simp⟩
  have hkey : groupKey groupByProperty p ≠ [] := by
    rw [groupKey, terminated]
    simpa using List.exists_mem_of_ne_nil groupByProperty hne
  rw [splitFields_of_ne_nil hkey] at h
  refine ⟨fun group hgroup => ?_, fun group hgroup hempty => ?_⟩
  · have hmem : p group ∈ groupByProperty.map p := List.mem_map_of_mem hgroup
    rw [← h] at hmem
    obtain ⟨value, hvalue, hgroup⟩ := List.mem_map.mp hmem
    exact ⟨value, hgroup.symm,
      notMem_of_mem_splitOn value ((List.rdropWhile_prefix _ _).subset hvalue)⟩
  · -- The last of the pieces is not empty.
    have hlast := congrArg List.getLast? h
    rw [List.getLast?_map, List.getLast?_map, hgroup, Option.map_some, hempty] at hlast
    obtain ⟨piece, hpiece, hnil⟩ := Option.map_eq_some_iff.mp hlast
    obtain ⟨hne', hgetLast⟩ := List.mem_getLast?_eq_getLast hpiece
    refine List.rdropWhile_last_not _ _ hne' ?_
    rw [← hgetLast, Option.some.inj hnil]
    rfl

/-- One key for one group. -/
theorem groupKey_eq_iff (hne : groupByProperty ≠ []) (hp : Recoverable groupByProperty p)
    (hq : Recoverable groupByProperty q) :
    groupKey groupByProperty p = groupKey groupByProperty q ↔
      ∀ group ∈ groupByProperty, p group = q group := by
  refine ⟨fun h => ?_, groupKey_congr⟩
  have hvalues : groupByProperty.map p = groupByProperty.map q := by
    rw [← splitFields_groupKey hne hp, h, splitFields_groupKey hne hq]
  exact List.map_inj_left.mp hvalues

end Recoverable

/-! ### When grouping is faithful -/

section Faithful

variable {parseDouble : List Char → Except AnalysisError D} {propertyKey : List Char}
  {propertiesCollection : List ExperimentProperties} {converter : NumberConverter D}
  {groupByProperty : List (List Char)} {statisticsMap : GroupedStatistics D}

theorem groupsFaithfully_of_recoverable (hne : groupByProperty ≠ [])
    (h : getPropertyStatistics parseDouble propertyKey propertiesCollection converter
      groupByProperty = .ok statisticsMap)
    (hrecoverable : ∀ p ∈ propertiesCollection, isSuccessful p = true →
      Recoverable groupByProperty p) :
    GroupsFaithfully propertiesCollection groupByProperty statisticsMap.keys
      (ContributesTo parseDouble propertyKey propertiesCollection converter groupByProperty) where
  same i j p q hi hj hp hq := by
    have hgroups := groupKey_eq_iff hne (hrecoverable p (List.mem_of_getElem? hi) hp)
      (hrecoverable q (List.mem_of_getElem? hj) hq)
    rw [← hgroups]
    constructor
    · rintro ⟨key, hip, hjq⟩
      obtain ⟨-, hpkey⟩ := (contributesTo_iff h hi).mp hip
      obtain ⟨-, hqkey⟩ := (contributesTo_iff h hj).mp hjq
      exact hpkey.trans hqkey.symm
    · intro hkey
      exact ⟨groupKey groupByProperty p, (contributesTo_iff h hi).mpr ⟨hp, rfl⟩,
        (contributesTo_iff h hj).mpr ⟨hq, hkey.symm⟩⟩
  unsuccessful i p hi hp key hcontributes := by
    obtain ⟨hsuccess, -⟩ := (contributesTo_iff h hi).mp hcontributes
    exact Bool.false_ne_true (hp.symm.trans hsuccess)
  recovered key hkey := by
    obtain ⟨p, hp, hsuccess, rfl⟩ := (mem_keys_getPropertyStatistics h).mp hkey
    obtain ⟨i, hi⟩ := List.mem_iff_getElem?.mp hp
    exact ⟨i, p, hi, (contributesTo_iff h hi).mpr ⟨hsuccess, rfl⟩,
      splitFields_groupKey hne (hrecoverable p hp hsuccess)⟩

/-- **When grouping is faithful**: exactly if the values of the groups are there in all successful
properties, none has the delimiter, and the last is not empty. -/
theorem groupsFaithfully_iff (hne : groupByProperty ≠ [])
    (h : getPropertyStatistics parseDouble propertyKey propertiesCollection converter
      groupByProperty = .ok statisticsMap) :
    GroupsFaithfully propertiesCollection groupByProperty statisticsMap.keys
        (ContributesTo parseDouble propertyKey propertiesCollection converter groupByProperty) ↔
      ∀ p ∈ propertiesCollection, isSuccessful p = true → Recoverable groupByProperty p := by
  refine ⟨fun hfaithful p hp hsuccess => ?_, groupsFaithfully_of_recoverable hne h⟩
  have hkey := (mem_keys_getPropertyStatistics h).mpr ⟨p, hp, hsuccess, rfl⟩
  obtain ⟨i, q, hi, hcontributes, hsplit⟩ := hfaithful.recovered _ hkey
  obtain ⟨j, hj⟩ := List.mem_iff_getElem?.mp hp
  -- The values that are read are those of some properties; these have the values of `p`.
  obtain ⟨hqsuccess, -⟩ := (contributesTo_iff h hi).mp hcontributes
  have hagree := (hfaithful.same i j q p hi hj hqsuccess hsuccess).mp
    ⟨_, hcontributes, (contributesTo_iff h hj).mpr ⟨hsuccess, rfl⟩⟩
  refine recoverable_of_splitFields ?_
  rw [hsplit]
  exact List.map_congr_left hagree

end Faithful

/-- The properties of a successful experiment that took a nanosecond. -/
def experimentWith (manager networkSize : List Char) : ExperimentProperties := fun key =>
  [("status".toList, "SUCCESS".toList), ("duration".toList, "1".toList),
    ("manager".toList, manager), ("network_size".toList, networkSize)].lookup key

/-- A parser of numbers that knows one of them. -/
def parseOne (s : List Char) : Except AnalysisError ℤ :=
  if s = "1".toList then .ok 1 else .error .numberFormat

/-- Two networks of one manager. -/
def twoNetworks : List ExperimentProperties :=
  [experimentWith "Echo".toList "10".toList, experimentWith "Echo".toList "20".toList]

theorem groupsFaithfully_twoNetworks :
    ∃ statisticsMap, getPropertyStatistics parseOne "duration".toList twoNetworks id
        ["manager".toList, "network_size".toList] = .ok statisticsMap ∧
      GroupsFaithfully twoNetworks ["manager".toList, "network_size".toList] statisticsMap.keys
        (ContributesTo parseOne "duration".toList twoNetworks id
          ["manager".toList, "network_size".toList]) := by
  refine ⟨_, rfl, (groupsFaithfully_iff (by decide) rfl).mpr ?_⟩
  have hrecoverable : ∀ p ∈ twoNetworks,
      Recoverable ["manager".toList, "network_size".toList] p := by decide
  exact fun p hp _ => hrecoverable p hp

/-- A manager with the delimiter in its name, and a network with it in its size. -/
def clashing : List ExperimentProperties :=
  [experimentWith "a@b".toList "c".toList, experimentWith "a".toList "b@c".toList]

theorem not_groupsFaithfully_clashing :
    ¬ ∀ statisticsMap, getPropertyStatistics parseOne "duration".toList clashing id
        ["manager".toList, "network_size".toList] = .ok statisticsMap →
      GroupsFaithfully clashing ["manager".toList, "network_size".toList] statisticsMap.keys
        (ContributesTo parseOne "duration".toList clashing id
          ["manager".toList, "network_size".toList]) := by
  intro h
  have hfaithful := h _ rfl
  have hsame := (hfaithful.same 0 1 _ _ rfl rfl rfl rfl).mp
    ⟨"a@b@c@".toList, by decide, by decide⟩
  exact absurd (hsame "manager".toList (by simp)) (by decide)

/-! ### An analyser -/

namespace TimeToReachStatePerNetworkSizeAnalyzer

theorem exists_decorateManagerAsApplicationName (lib : AnalysisLibrary D)
    (manager : List Char) :
    ∃ application, decorateManagerAsApplicationName lib (some manager) = .ok application := by
  have hite (b c : Prop) [Decidable b] [Decidable c] (x y z : List Char) :
      ∃ application, (if b then pure x else if c then pure y else pure z) =
        (.ok application : Except AnalysisError (List Char)) := by
    split
    · exact ⟨x, rfl⟩
    · split
      · exact ⟨y, rfl⟩
      · exact ⟨z, rfl⟩
  exact hite _ _ _ _ _

/-- What is added for properties and the samples of their group. -/
structure AddedFor (lib : AnalysisLibrary D) (p : ExperimentProperties)
    (statistics : List (Number D)) (added : DatasetEntry D) : Prop where
  mean : added.mean = lib.mean statistics
  confidenceInterval95Percent :
    added.confidenceInterval95Percent = lib.confidenceInterval95Percent statistics
  rowKey : decorateManagerAsApplicationName lib (p managerProperty) = .ok added.rowKey
  columnKey : p networkSizeProperty = some added.columnKey

theorem exists_addEntry (lib : AnalysisLibrary D) {p : ExperimentProperties}
    (h : Recoverable groupByProperty p) (statistics : List (Number D)) :
    ∃ added, addEntry lib (groupKey groupByProperty p, statistics) = .ok added ∧
      AddedFor lib p statistics added := by
  have hsplit := splitFields_groupKey (by decide) h
  obtain ⟨manager, groups, hgroups, hmanager, hrest⟩ := List.map_eq_cons_iff.mp hsplit
  obtain ⟨networkSize, groups, rfl, hnetworkSize, hnil⟩ := List.map_eq_cons_iff.mp hrest
  obtain rfl := List.map_eq_nil_iff.mp hnil
  obtain ⟨application, happlication⟩ := exists_decorateManagerAsApplicationName lib manager
  refine ⟨⟨_, _, application, networkSize⟩, ?_, rfl, rfl, ?_, hnetworkSize.symm⟩
  · rw [addEntry, hgroups]
    exact bind_eq_ok_iff.mpr ⟨manager, rfl, bind_eq_ok_iff.mpr ⟨application, happlication, rfl⟩⟩
  · rw [← hmanager]
    exact happlication

/-- **What is in the dataset**: for every key in the map the application and the network size of the
experiments with that key, and what their samples give. -/
theorem exists_getDataset [Div D] [IntCast D] (lib : AnalysisLibrary D)
    {parseDouble : List Char → Except AnalysisError D} {durationProperty : List Char}
    {experimentProperties : List ExperimentProperties}
    {statisticsMap : GroupedStatistics D}
    (h : getPropertyStatistics parseDouble durationProperty experimentProperties
      nanosecondToSecond groupByProperty = .ok statisticsMap)
    (hrecoverable : ∀ p ∈ experimentProperties, isSuccessful p = true →
      Recoverable groupByProperty p) :
    ∃ dataset, getDataset lib parseDouble durationProperty experimentProperties = .ok dataset ∧
      List.Forall₂ (fun key added => ∃ p ∈ experimentProperties, isSuccessful p = true ∧
        groupKey groupByProperty p = key ∧
        AddedFor lib p (samplesUnder parseDouble durationProperty experimentProperties
          nanosecondToSecond groupByProperty key) added) statisticsMap.keys dataset := by
  rw [getDataset, h, LinkedHashMap.keys]
  simp only [List.forall₂_map_left_iff]
  refine exists_mapM fun entry hentry => ?_
  obtain ⟨p, hp, hsuccess, hkey⟩ := (mem_keys_getPropertyStatistics h).mp
    (List.mem_map_of_mem hentry)
  obtain ⟨added, hadded, hof⟩ := exists_addEntry lib (hrecoverable p hp hsuccess) entry.2
  rw [hkey] at hadded
  rw [eq_samplesUnder_of_mem_entries h hentry] at hof
  exact ⟨added, hadded, p, hp, hsuccess, hkey, hof⟩

end TimeToReachStatePerNetworkSizeAnalyzer

end Shabdiz
