import Mathlib.Data.List.Dedup
import Mathlib.Data.List.Perm.Basic
import Shabdiz.Site.Query
import Shabdiz.Util.LinkedHashMap
import Shabdiz.Util.Loops

/-!
# The scenarios that match a query

A query selects values of seven attributes by their positions among the keys that `groupBy` gives
for the attribute. `matches` collects the groups of the selected churns and filters them by the
other six attributes.

`groupBy` collects the groups as properties of an object that has a prototype. A value that is the
name of a property of `Object.prototype` is found there, where it is no array, and the group of that
value cannot be made.

## Main definitions

* `groupBy`, `objectKeys`, `queryMatches` — the code
* `inheritedProperties` — the properties of `Object.prototype`
* `MatchesExactly` — every scenario with selected values once, in order for each churn

## Main results

* `groupBy_eq_ok` — the groups
* `matchesExactly_iff` — when the matches are exact
-/

namespace Shabdiz

/-! ### The code -/

/-- What is thrown. -/
inductive JSError where
  | typeError
deriving DecidableEq

/-- The properties of `Object.prototype`. None is `undefined`, and none has a `push` or a
`forEach`. -/
def inheritedProperties : List JSString :=
  ["constructor", "__defineGetter__", "__defineSetter__", "hasOwnProperty", "__lookupGetter__",
    "__lookupSetter__", "isPrototypeOf", "propertyIsEnumerable", "toString", "valueOf", "__proto__",
    "toLocaleString"].map codeUnits

/-- The number that a property is an array index for. -/
def arrayIndex? (key : JSString) : Option ℕ :=
  let n := (leadingDigits 10 key).foldl (fun n d => 10 * n + d) 0
  if key = decimal n ∧ n < 2 ^ 32 - 1 then some n else none

/-- `Object.keys`, for properties in the order of their creation: array indices come first, in
ascending order. -/
def objectKeys (created : List JSString) : List JSString :=
  (created.filter fun key => (arrayIndex? key).isSome).mergeSort
      (fun k l => (arrayIndex? k).getD 0 ≤ (arrayIndex? l).getD 0) ++
    created.filter fun key => !(arrayIndex? key).isSome

/-- The attributes that a query filters by. -/
inductive ScenarioAttribute where
  | churn
  | workload
  | peerConfiguration
  | experimentDuration
  | trainingDuration
  | clusteringAlgorithm
  | feedbackEnabled
deriving DecidableEq

/-- The selections of a query for an attribute. -/
def Query.selections {ν : Type} (q : Query ν) : ScenarioAttribute → List ν
  | .churn => q.churn
  | .workload => q.workload
  | .peerConfiguration => q.peerConfiguration
  | .experimentDuration => q.experimentDuration
  | .trainingDuration => q.trainingDuration
  | .clusteringAlgorithm => q.clusteringAlgorithm
  | .feedbackEnabled => q.feedbackEnabled

section Code

variable {σ : Type}

/-- What `groupBy` does with an element. -/
def pushTo (f : σ → JSString) (groups : LinkedHashMap JSString (List σ)) (element : σ) :
    Except JSError (LinkedHashMap JSString (List σ)) :=
  let key := f element
  match groups.get key with
  | some group => .ok (groups.put key (group ++ [element]))
  | none =>
    if key ∈ inheritedProperties then .error .typeError else .ok (groups.put key [element])

/-- `Array.prototype.groupBy`, with the own properties of the object in the order of their
creation. -/
def groupBy (f : σ → JSString) (array : List σ) :
    Except JSError (LinkedHashMap JSString (List σ)) :=
  array.foldlM (pushTo f) .empty

variable (prop : σ → ScenarioAttribute → JSString) (scenarios : List σ)

/-- The keys of `groupBy` on an attribute. -/
def attributeKeys (a : ScenarioAttribute) : Except JSError (List JSString) := do
  let groups ← groupBy (prop · a) scenarios
  pure (objectKeys groups.keys)

/-- The loop over the selected churns. A key that is not there is `undefined`, whose name as a
property is a text too. -/
def pushGroup (churnKeys : List JSString) (matched : List σ) (selection : ℕ) :
    Except JSError (List σ) := do
  let groups ← groupBy (prop · .churn) scenarios
  match groups.get (churnKeys[selection]?.getD (codeUnits "undefined")) with
  | some group => pure (matched ++ group)
  | none => throw .typeError

/-- One of the filters. -/
def filterSelected (a : ScenarioAttribute) (keys : List JSString) (selections : List ℕ)
    (matched : List σ) : List σ :=
  matched.filter fun element =>
    selections.foldl (fun found selection =>
      found || keys[selection]? = some (prop element a)) false

/-- `matches`. -/
def queryMatches (q : Query ℕ) : Except JSError (List σ) := do
  let churnKeys ← attributeKeys prop scenarios .churn
  let workloadKeys ← attributeKeys prop scenarios .workload
  let peerConfigurationKeys ← attributeKeys prop scenarios .peerConfiguration
  let experimentDurationKeys ← attributeKeys prop scenarios .experimentDuration
  let trainingDurationKeys ← attributeKeys prop scenarios .trainingDuration
  let clusteringAlgorithmKeys ← attributeKeys prop scenarios .clusteringAlgorithm
  let feedbackEnabledKeys ← attributeKeys prop scenarios .feedbackEnabled
  let matched ← q.churn.foldlM (pushGroup prop scenarios churnKeys) []
  let matched := filterSelected prop .workload workloadKeys q.workload matched
  let matched :=
    filterSelected prop .peerConfiguration peerConfigurationKeys q.peerConfiguration matched
  let matched :=
    filterSelected prop .experimentDuration experimentDurationKeys q.experimentDuration matched
  let matched :=
    filterSelected prop .trainingDuration trainingDurationKeys q.trainingDuration matched
  let matched := filterSelected prop .clusteringAlgorithm clusteringAlgorithmKeys
    q.clusteringAlgorithm matched
  let matched :=
    filterSelected prop .feedbackEnabled feedbackEnabledKeys q.feedbackEnabled matched
  pure matched

end Code

/-! ### What the matches are to be -/

section Specification

variable {σ : Type} (prop : σ → ScenarioAttribute → JSString) (scenarios : List σ) (q : Query ℕ)

/-- The selections are positions among the values of the attributes, none selected twice. -/
structure SelectsPositions : Prop where
  inRange : ∀ a, ∀ selection ∈ q.selections a,
    selection < (scenarios.map (prop · a)).dedup.length
  nodup : ∀ a, (q.selections a).Nodup

/-- An element has one of the selected values. -/
def hasSelected (keys : List JSString) (selections : List ℕ) (value : JSString) : Bool :=
  selections.any fun selection => keys[selection]? = some value

/-- All of them, in the order of the source. -/
def scenarioAttributes : List ScenarioAttribute :=
  [.churn, .workload, .peerConfiguration, .experimentDuration, .trainingDuration,
    .clusteringAlgorithm, .feedbackEnabled]

/-- An element has selected values for all attributes. -/
def isMatch (keys : ScenarioAttribute → List JSString) (element : σ) : Bool :=
  scenarioAttributes.all fun a => hasSelected (keys a) (q.selections a) (prop element a)

/-- The matches are the scenarios that have selected values for all attributes, each once, and those
with one churn in the order in which they were. -/
def MatchesExactly : Prop :=
  ∃ (keys : ScenarioAttribute → List JSString) (matched : List σ),
    (∀ a, attributeKeys prop scenarios a = .ok (keys a)) ∧
    queryMatches prop scenarios q = .ok matched ∧
    matched.Perm (scenarios.filter (isMatch prop q keys)) ∧
    ∀ churn, matched.filter (prop · .churn = churn) =
      (scenarios.filter (isMatch prop q keys)).filter (prop · .churn = churn)

end Specification

/-! ### Groups -/

section Groups

variable {σ : Type} {f : σ → JSString} {array : List σ} {element : σ} {key : JSString}
  {groups after : LinkedHashMap JSString (List σ)}

/-- What is done with an element: it is added to its group, unless the name of the group is
inherited and there is no such group. -/
theorem pushTo_eq_ok_iff :
    pushTo f groups element = .ok after ↔
      (f element ∈ groups.keys ∨ f element ∉ inheritedProperties) ∧
        after = groups.put (f element) ((groups.get (f element)).getD [] ++ [element]) := by
  rw [pushTo, LinkedHashMap.mem_keys_iff]
  cases hget : groups.get (f element) with
  | some group => simp [eq_comm]
  | none =>
    by_cases hinherited : f element ∈ inheritedProperties
    · simp [hinherited]
    · simp [hinherited, eq_comm]

theorem mem_keys_of_pushTo (h : pushTo f groups element = .ok after) :
    key ∈ after.keys ↔ key ∈ groups.keys ∨ f element = key := by
  obtain ⟨-, rfl⟩ := pushTo_eq_ok_iff.mp h
  rw [LinkedHashMap.keys_put]
  split
  · next hmem =>
    refine ⟨.inl, ?_⟩
    rintro (hkey | rfl)
    · exact hkey
    · exact hmem
  · simp [eq_comm]

theorem get_of_pushTo (h : pushTo f groups element = .ok after) :
    (after.get key).getD [] = (groups.get key).getD [] ++ [element].filter (f · = key) := by
  obtain ⟨-, rfl⟩ := pushTo_eq_ok_iff.mp h
  rw [LinkedHashMap.get_put]
  by_cases hkey : key = f element
  · subst hkey
    simp
  · simp [hkey, Ne.symm hkey]

/-- A run of the loop that comes to its end has met no inherited name. -/
theorem notMem_of_foldlM_pushTo (hgroups : ∀ key ∈ groups.keys, key ∉ inheritedProperties)
    (h : array.foldlM (pushTo f) groups = .ok after) :
    ∀ element ∈ array, f element ∉ inheritedProperties := by
  induction array generalizing groups with
  | nil => simp
  | cons element array ih =>
    obtain ⟨next, hnext, hrest⟩ := bind_eq_ok_iff.mp h
    have helement : f element ∉ inheritedProperties := by
      obtain ⟨hmem | hnot, -⟩ := pushTo_eq_ok_iff.mp hnext
      · exact hgroups _ hmem
      · exact hnot
    refine List.forall_mem_cons.mpr ⟨helement, ih (fun key hkey => ?_) hrest⟩
    obtain hkey | rfl := (mem_keys_of_pushTo hnext).mp hkey
    · exact hgroups key hkey
    · exact helement

theorem exists_foldlM_pushTo (h : ∀ element ∈ array, f element ∉ inheritedProperties) :
    ∃ after, array.foldlM (pushTo f) groups = .ok after ∧
      (∀ key, (after.get key).getD [] = (groups.get key).getD [] ++ array.filter (f · = key)) ∧
      ∀ key, key ∈ after.keys ↔ key ∈ groups.keys ∨ key ∈ array.map f := by
  induction array generalizing groups with
  | nil => exact ⟨groups, rfl, by simp, by simp⟩
  | cons element array ih =>
    obtain ⟨helement, harray⟩ := List.forall_mem_cons.mp h
    obtain ⟨next, hnext⟩ : ∃ next, pushTo f groups element = .ok next :=
      ⟨_, pushTo_eq_ok_iff.mpr ⟨.inr helement, rfl⟩⟩
    obtain ⟨after, hafter, hget, hkeys⟩ := @ih next harray
    refine ⟨after, bind_eq_ok_iff.mpr ⟨next, hnext, hafter⟩, fun key => ?_, fun key => ?_⟩
    · rw [hget, get_of_pushTo hnext, List.append_assoc, ← List.filter_append,
        List.singleton_append]
    · rw [hkeys, mem_keys_of_pushTo hnext, or_assoc, List.map_cons, List.mem_cons, eq_comm]

/-- **The groups**: there is one for each value, of the elements with it in their order. -/
theorem groupBy_eq_ok (h : ∀ element ∈ array, f element ∉ inheritedProperties) :
    ∃ groups, groupBy f array = .ok groups ∧
      (∀ key, key ∈ groups.keys ↔ key ∈ array.map f) ∧
      ∀ key ∈ groups.keys, groups.get key = some (array.filter (f · = key)) := by
  obtain ⟨groups, hgroups, hget, hkeys⟩ := @exists_foldlM_pushTo σ f array .empty h
  refine ⟨groups, hgroups, fun key => ?_, fun key hkey => ?_⟩
  · rw [hkeys]
    simp [LinkedHashMap.empty, LinkedHashMap.keys]
  · obtain ⟨group, hgroup⟩ := LinkedHashMap.mem_keys_iff.mp hkey
    have hvalue := hget key
    rw [hgroup] at hvalue ⊢
    exact congrArg some hvalue

theorem groupBy_ne_ok (h : groupBy f array = .ok groups) :
    ∀ element ∈ array, f element ∉ inheritedProperties :=
  notMem_of_foldlM_pushTo (fun _ hkey => absurd hkey List.not_mem_nil) h

/-- Every key comes once, whatever the order. -/
theorem perm_objectKeys (created : List JSString) : (objectKeys created).Perm created :=
  ((List.mergeSort_perm _ _).append_right _).trans (List.filter_append_perm _ _)

end Groups

/-! ### Lists that are put together of groups -/

section Lists

variable {σ κ : Type} [DecidableEq κ] {f : σ → κ} {l m : List σ} {keys : List κ} {value : κ}

/-- What comes of one group: it is the group, if its key is among the keys. -/
theorem filter_flatMap_filter (hkeys : keys.Nodup) :
    (keys.flatMap fun key => l.filter (f · = key)).filter (f · = value) =
      if value ∈ keys then l.filter (f · = value) else [] := by
  have hgroup (key : κ) : (l.filter (f · = key)).filter (f · = value) =
      if value = key then l.filter (f · = value) else [] := by
    split
    · next h =>
      subst h
      rw [List.filter_filter]
      exact List.filter_congr fun a _ => Bool.and_self _
    · next h =>
      rw [List.filter_eq_nil_iff]
      intro a ha
      have hkey : f a = key := by simpa using (List.mem_filter.mp ha).2
      simpa [hkey] using Ne.symm h
  induction keys with
  | nil => rfl
  | cons key keys ih =>
    obtain ⟨hkey, hkeys⟩ := List.nodup_cons.mp hkeys
    rw [List.flatMap_cons, List.filter_append, hgroup, ih hkeys]
    by_cases hvalue : value = key
    · subst hvalue
      rw [if_pos rfl, if_neg hkey, if_pos List.mem_cons_self, List.append_nil]
    · rw [if_neg hvalue, List.nil_append]
      simp [hvalue]

/-- Lists with the same groups have the same elements. -/
theorem perm_of_filter_eq (h : ∀ value, l.filter (f · = value) = m.filter (f · = value)) :
    l.Perm m := by
  classical
  rw [List.perm_iff_count]
  intro a
  have hl : (l.filter (f · = f a)).count a = l.count a := List.count_filter (by simp)
  have hm : (m.filter (f · = f a)).count a = m.count a := List.count_filter (by simp)
  rw [← hl, h, hm]

theorem foldl_or_eq_any {p : σ → Bool} (b : Bool) :
    l.foldl (fun found a => found || p a) b = (b || l.any p) := by
  induction l generalizing b with
  | nil => simp
  | cons a l ih => rw [List.foldl_cons, ih, List.any_cons, Bool.or_assoc]

end Lists

/-! ### The matches -/

section Matches

variable {σ : Type} {prop : σ → ScenarioAttribute → JSString} {scenarios : List σ} {q : Query ℕ}
  {a : ScenarioAttribute} {keys : List JSString}

theorem attributeKeys_eq_ok (h : ∀ s ∈ scenarios, prop s a ∉ inheritedProperties) :
    ∃ keys, attributeKeys prop scenarios a = .ok keys ∧ keys.Nodup ∧
      ∀ key, key ∈ keys ↔ key ∈ scenarios.map (prop · a) := by
  obtain ⟨groups, hgroups, hkeys, -⟩ := groupBy_eq_ok (f := (prop · a)) h
  have hperm := perm_objectKeys groups.keys
  refine ⟨objectKeys groups.keys, ?_, hperm.nodup_iff.mpr groups.nodup, fun key => ?_⟩
  · exact bind_eq_ok_iff.mpr ⟨groups, hgroups, rfl⟩
  · rw [hperm.mem_iff, hkeys]

theorem notMem_of_attributeKeys (h : attributeKeys prop scenarios a = .ok keys) :
    ∀ s ∈ scenarios, prop s a ∉ inheritedProperties := by
  obtain ⟨groups, hgroups, -⟩ := bind_eq_ok_iff.mp h
  exact groupBy_ne_ok hgroups

theorem filterSelected_eq (selections : List ℕ) (matched : List σ) :
    filterSelected prop a keys selections matched =
      matched.filter fun element => hasSelected keys selections (prop element a) := by
  rw [filterSelected]
  refine List.filter_congr fun element _ => ?_
  rw [foldl_or_eq_any, Bool.false_or]
  rfl

/-- The groups of the selected churns, in the order of the selections. -/
theorem foldlM_pushGroup {selections : List ℕ} (matched : List σ)
    (h : ∀ s ∈ scenarios, prop s .churn ∉ inheritedProperties)
    (hkeys : ∀ key, key ∈ keys ↔ key ∈ scenarios.map (prop · .churn))
    (hrange : ∀ selection ∈ selections, selection < keys.length) :
    selections.foldlM (pushGroup prop scenarios keys) matched =
      .ok (matched ++ (selections.filterMap (keys[·]?)).flatMap fun key =>
        scenarios.filter (prop · .churn = key)) := by
  induction selections generalizing matched with
  | nil => simp [pure, Except.pure]
  | cons selection selections ih =>
    obtain ⟨hselection, hrange⟩ := List.forall_mem_cons.mp hrange
    obtain ⟨groups, hgroups, hmem, hget⟩ := groupBy_eq_ok (f := (prop · .churn)) h
    have hkey : keys[selection]? = some keys[selection] := List.getElem?_eq_getElem hselection
    have hgroup : groups.get keys[selection] =
        some (scenarios.filter (prop · .churn = keys[selection])) :=
      hget _ ((hmem _).mpr ((hkeys _).mp (List.getElem_mem hselection)))
    have hround : pushGroup prop scenarios keys matched selection =
        .ok (matched ++ scenarios.filter (prop · .churn = keys[selection])) := by
      refine bind_eq_ok_iff.mpr ⟨groups, hgroups, ?_⟩
      rw [hkey, Option.getD_some, hgroup]
      rfl
    rw [List.foldlM_cons, hround]
    refine (ih _ hrange).trans ?_
    rw [List.filterMap_cons_some hkey, List.flatMap_cons, List.append_assoc]

/-- **What is returned**: of the groups of the selected churns, the elements that have selected
values for the other attributes. -/
theorem queryMatches_eq_ok {keys : ScenarioAttribute → List JSString} {matched : List σ}
    (hkeys : ∀ a, attributeKeys prop scenarios a = .ok (keys a))
    (hmatched : q.churn.foldlM (pushGroup prop scenarios (keys .churn)) [] = .ok matched) :
    queryMatches prop scenarios q = .ok (matched.filter fun element =>
      scenarioAttributes.tail.all fun a =>
        hasSelected (keys a) (q.selections a) (prop element a)) := by
  refine bind_eq_ok_iff.mpr ⟨_, hkeys .churn, ?_⟩
  refine bind_eq_ok_iff.mpr ⟨_, hkeys .workload, ?_⟩
  refine bind_eq_ok_iff.mpr ⟨_, hkeys .peerConfiguration, ?_⟩
  refine bind_eq_ok_iff.mpr ⟨_, hkeys .experimentDuration, ?_⟩
  refine bind_eq_ok_iff.mpr ⟨_, hkeys .trainingDuration, ?_⟩
  refine bind_eq_ok_iff.mpr ⟨_, hkeys .clusteringAlgorithm, ?_⟩
  refine bind_eq_ok_iff.mpr ⟨_, hkeys .feedbackEnabled, ?_⟩
  refine bind_eq_ok_iff.mpr ⟨matched, hmatched, congrArg Except.ok ?_⟩
  simp only [filterSelected_eq, List.filter_filter]
  refine List.filter_congr fun element _ => ?_
  rw [Bool.eq_iff_iff]
  simp only [scenarioAttributes, List.tail_cons, List.all_cons, List.all_nil, Query.selections,
    Bool.and_eq_true]
  tauto

theorem length_keys (hnodup : keys.Nodup)
    (hmem : ∀ key, key ∈ keys ↔ key ∈ scenarios.map (prop · a)) :
    keys.length = (scenarios.map (prop · a)).dedup.length := by
  refine List.Perm.length_eq ((List.perm_ext_iff_of_nodup hnodup (List.nodup_dedup _)).mpr ?_)
  intro key
  rw [hmem, List.mem_dedup]

/-- Positions that are not selected twice select no key twice. -/
theorem nodup_filterMap_getElem? {selections : List ℕ} (hkeys : keys.Nodup)
    (hselections : selections.Nodup) : (selections.filterMap (keys[·]?)).Nodup := by
  refine hselections.filterMap fun i j key hi hj => ?_
  obtain ⟨hlt, -⟩ := List.getElem?_eq_some_iff.mp (Option.mem_def.mp hi)
  exact (List.getElem?_inj hlt hkeys).mp (hi.trans hj.symm)

theorem mem_filterMap_getElem? {selections : List ℕ} {value : JSString} :
    value ∈ selections.filterMap (keys[·]?) ↔ hasSelected keys selections value = true := by
  rw [List.mem_filterMap, hasSelected, List.any_eq_true]
  simp only [decide_eq_true_eq]

variable (prop scenarios q) in
/-- The elements with one churn: those of its group, if it is selected. -/
theorem filter_flatMap_isMatch {keys : ScenarioAttribute → List JSString} {selected : List JSString}
    (hnodup : selected.Nodup)
    (hselected : ∀ value, value ∈ selected ↔
      hasSelected (keys .churn) (q.selections .churn) value = true) (churn : JSString) :
    ((selected.flatMap fun key => scenarios.filter (prop · .churn = key)).filter fun element =>
        scenarioAttributes.tail.all fun a =>
          hasSelected (keys a) (q.selections a) (prop element a)).filter (prop · .churn = churn) =
      (scenarios.filter (isMatch prop q keys)).filter (prop · .churn = churn) := by
  have hmatch (element : σ) : isMatch prop q keys element =
      (hasSelected (keys .churn) (q.selections .churn) (prop element .churn) &&
        scenarioAttributes.tail.all fun a =>
          hasSelected (keys a) (q.selections a) (prop element a)) := rfl
  rw [List.filter_comm, filter_flatMap_filter hnodup, List.filter_comm]
  split
  · next hmem =>
    rw [List.filter_filter, List.filter_filter]
    refine List.filter_congr fun element _ => ?_
    by_cases hchurn : prop element .churn = churn
    · rw [hmatch, hchurn, (hselected churn).mp hmem, Bool.true_and]
    · simp [hchurn]
  · next hmem =>
    -- An element with that churn is no match.
    symm
    rw [List.filter_nil, List.filter_eq_nil_iff]
    intro element helement hisMatch
    have hchurn : prop element .churn = churn := by
      simpa using (List.mem_filter.mp helement).2
    rw [hmatch, Bool.and_eq_true, hchurn] at hisMatch
    exact hmem ((hselected churn).mpr hisMatch.1)

/-- **When the matches are exact**: exactly if no attribute of a scenario is the name of a property
of `Object.prototype`. -/
theorem matchesExactly_iff (hselects : SelectsPositions prop scenarios q) :
    MatchesExactly prop scenarios q ↔
      ∀ s ∈ scenarios, ∀ a, prop s a ∉ inheritedProperties := by
  constructor
  · rintro ⟨keys, matched, hkeys, -⟩ s hs a
    exact notMem_of_attributeKeys (hkeys a) s hs
  · intro h
    choose keys hkeys hnodup hmem using fun a =>
      attributeKeys_eq_ok (a := a) fun s hs => h s hs a
    have hrange : ∀ selection ∈ q.churn, selection < (keys .churn).length := by
      rw [length_keys (hnodup .churn) (hmem .churn)]
      exact hselects.inRange .churn
    have hfirst := foldlM_pushGroup [] (fun s hs => h s hs .churn) (hmem .churn) hrange
    have hgroups := filter_flatMap_isMatch prop scenarios q
      (nodup_filterMap_getElem? (hnodup .churn) (hselects.nodup .churn))
      fun value => mem_filterMap_getElem?
    rw [List.nil_append] at hfirst
    exact ⟨keys, _, hkeys, queryMatches_eq_ok hkeys hfirst, perm_of_filter_eq hgroups, hgroups⟩

end Matches

/-! ### Two scenarios -/

/-- A scenario with one value for the attributes but the first. -/
def scenarioWith (churn others : JSString) : ScenarioAttribute → JSString
  | .churn => churn
  | _ => others

/-- The first value of each attribute. -/
def firstOfEach : Query ℕ := ⟨0, [0], [0], [0], [0], [0], [0], [0]⟩

theorem matchesExactly_twoScenarios :
    MatchesExactly id [scenarioWith (codeUnits "High") (codeUnits "1"),
      scenarioWith (codeUnits "None") (codeUnits "1")] firstOfEach := by
  refine (matchesExactly_iff ⟨fun a => ?_, fun a => ?_⟩).mpr fun s hs a => ?_
  · cases a <;> decide
  · cases a <;> decide
  · revert s
    cases a <;> decide

/-- A scenario whose churn is the name of the constructor of all objects. -/
theorem not_matchesExactly_constructor :
    ¬ (SelectsPositions id [scenarioWith (codeUnits "constructor") (codeUnits "1")] firstOfEach →
      MatchesExactly id [scenarioWith (codeUnits "constructor") (codeUnits "1")] firstOfEach) := by
  intro h
  have hselects : SelectsPositions id [scenarioWith (codeUnits "constructor") (codeUnits "1")]
      firstOfEach := by
    refine ⟨fun a => ?_, fun a => ?_⟩
    · cases a <;> decide
    · cases a <;> decide
  obtain ⟨keys, matched, -, hmatched, -⟩ := h hselects
  have hthrows : queryMatches id [scenarioWith (codeUnits "constructor") (codeUnits "1")]
      firstOfEach = .error .typeError := rfl
  rw [hthrows] at hmatched
  cases hmatched

end Shabdiz
