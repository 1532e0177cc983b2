import Shabdiz.Host.Bootstrap
import Shabdiz.Text.Numeral

/-!
# The process id, from the process to the launcher

A bootstrap takes its process id from the name of its runtime, which has the form `<int>@<machine>`
on most platforms, but may be any text. A name of another form is documented to give `null`. It does
so only without an `@`, and then `null` is handed over as a text, which one of the two readers of
the property takes for a numeral.

## Main definitions

* `Bootstrap.getPIDFromRuntimeMXBeanName` — what the constructor of a bootstrap sets
* `Bootstrap.getPIDProperty`, `WorkerManager.getProcessIDFromProperties` — the two readers
* `Launch` — a run of a bootstrap whose properties are read back
* `HandsOverPid` — the constructor returns, and both readers have the process id, if there is one

## Main results

* `Launch.readBack_eq` — what both readers are given
* `getPIDProperty_eq_getProcessIDFromProperties_iff` — where the two readers agree
* `handsOverPid_iff` — the names from which the process id is handed over
-/

namespace Shabdiz

/-! ### The code -/

/-- The exceptions of the code below. -/
inductive PidException where
  | numberFormat
  | nullPointer
deriving DecidableEq

/-- A process id, from its numeral. -/
def parsePid (s : List Char) : Except PidException (Option Int32) :=
  match Integer.parseInt s with
  | some pid => .ok (some pid)
  | none => .error .numberFormat

/-- The process id in a name of a runtime, or `null` if there is no `@` in the name. -/
def Bootstrap.getPIDFromRuntimeMXBeanName (runtimeMXBeanName : List Char) :
    Except PidException (Option Int32) :=
  match runtimeMXBeanName.idxOf? '@' with
  | some indexOfAt => parsePid (runtimeMXBeanName.take indexOfAt)
  | none => .ok none

/-- The process id as the bootstrap reads it: none if the property is missing. -/
def Bootstrap.getPIDProperty (properties : Properties) : Except PidException (Option Int32) :=
  match properties.lookup pidPropertyKey with
  | some pidAsString => parsePid pidAsString
  | none => .ok none

/-- The process id as the worker manager reads it: the property may be the text `null`, and must
not be missing. -/
def WorkerManager.getProcessIDFromProperties (properties : Properties) :
    Except PidException (Option Int32) :=
  match properties.lookup pidPropertyKey with
  | some pidAsString =>
    if pidAsString = ['n', 'u', 'l', 'l'] then .ok none else parsePid pidAsString
  | none => .error .nullPointer

open Bootstrap WorkerManager

/-! ### A launch -/

/-- A run of a bootstrap whose properties are read back: the class name reads back, none of the
properties set by `deploy` has an empty key or value or is the process id, and none of the other
lines of the output looks like the properties. -/
structure Launch where
  charset : Charset
  separator : LineSeparator
  id : List Char
  calls : List (List Char × List Char)
  lines : List (List UInt8)
  unbroken_id : ∀ c ∈ id, c ≠ '\n' ∧ c ≠ '\r'
  readsBack_id : charset.ReadsBack id
  calls_ne_nil : ∀ kv ∈ calls, kv.1 ≠ [] ∧ kv.2 ≠ []
  calls_ne_pid : pidPropertyKey ∉ calls.map Prod.fst
  unbroken_lines : ∀ l ∈ lines, UnbrokenBytes l
  other_lines : ∀ l ∈ lines, ¬ IsPropertiesLine id (l.map byteChar)

/-- The calls of `setProperty` in a launch, the constructor's call first. -/
def Launch.allCalls (l : Launch) (pid : Option Int32) : List (List Char × List Char) :=
  defaultProperty (pid.map Int32.toInt) :: l.calls

/-- What the launcher reads, if the properties are printed in the order of `es`. -/
def Launch.readBack (l : Launch) (es : List (List Char × List Char)) :
    Except BootstrapException (Option Properties) :=
  newProcessOutputScannerTask l.id (fun _ => false) 0
    (l.lines.flatMap (· ++ l.charset.bytes l.separator.chars) ++
      printProperties l.charset l.separator l.id es)

/-- A name of the form `<int>@<machine>`. -/
def HasPid (name : List Char) (pid : Int32) : Prop :=
  ∃ numeral machine, name = numeral ++ '@' :: machine ∧ Integer.parseInt numeral = some pid

/-- The constructor returns, and both readers return the process id in the name, or `null` if the
name is of another form. -/
def HandsOverPid (name : List Char) (l : Launch) : Prop :=
  ∃ pid, getPIDFromRuntimeMXBeanName name = .ok pid ∧
    ∀ es, (setProperties (l.allCalls pid)).ListedBy es →
      ∃ p r, l.readBack es = .ok (some p) ∧ getPIDProperty p = .ok r ∧
        getProcessIDFromProperties p = .ok r ∧ ∀ n, r = some n ↔ HasPid name n

/-! ### Names -/

section Names

variable {s numeral machine name : List Char} {n : Int32}

theorem not_mem_of_parseInt (h : Integer.parseInt s = some n) : '@' ∉ s := by
  intro hat
  have hnumeric := isNumeric_of_integer? (Integer.parseInt_eq_some_iff.mp h) '@' hat
  exact absurd hnumeric (by decide)

theorem getPIDFromRuntimeMXBeanName_append (h : '@' ∉ numeral) :
    getPIDFromRuntimeMXBeanName (numeral ++ '@' :: machine) = parsePid numeral := by
  have hidx : (numeral ++ '@' :: machine).idxOf? '@' = some numeral.length := by
    induction numeral with
    | nil => rfl
    | cons c numeral ih =>
      rw [List.mem_cons, not_or] at h
      rw [List.cons_append, List.idxOf?_cons, if_neg (by simpa using Ne.symm h.1), ih h.2]
      rfl
  rw [getPIDFromRuntimeMXBeanName, hidx]
  exact congrArg parsePid List.take_left

theorem getPIDFromRuntimeMXBeanName_of_not_mem (h : '@' ∉ name) :
    getPIDFromRuntimeMXBeanName name = .ok none := by
  rw [getPIDFromRuntimeMXBeanName, List.idxOf?_eq_none_iff.mpr h]

/-- A name of the form `<int>@<machine>` gives its process id. -/
theorem HasPid.getPID (h : HasPid name n) : getPIDFromRuntimeMXBeanName name = .ok (some n) := by
  obtain ⟨numeral, machine, rfl, hn⟩ := h
  rw [getPIDFromRuntimeMXBeanName_append (not_mem_of_parseInt hn), parsePid, hn]

theorem HasPid.unique {m : Int32} (h : HasPid name n) (h' : HasPid name m) : n = m :=
  Option.some.inj (Except.ok.inj (h.getPID.symm.trans h'.getPID))

/-- The constructor of a bootstrap throws on the names with an `@` and another form. -/
theorem getPIDFromRuntimeMXBeanName_of_mem (h : '@' ∈ name) (hno : ∀ n, ¬ HasPid name n) :
    getPIDFromRuntimeMXBeanName name = .error .numberFormat := by
  obtain ⟨numeral, machine, rfl, hnumeral⟩ := List.eq_append_cons_of_mem h
  rw [getPIDFromRuntimeMXBeanName_append hnumeral, parsePid]
  cases hn : Integer.parseInt numeral with
  | none => rfl
  | some n => exact absurd ⟨numeral, machine, rfl, hn⟩ (hno n)

end Names

/-! ### Readers -/

section Readers

variable {p : Properties} {l : Launch} {pid : Option Int32} {es : List (List Char × List Char)}

theorem parseInt_toString (n : Int32) : Integer.parseInt (toString n.toInt).toList = some n := by
  have htext : (toString n.toInt).toList = integerText n.toInt := by
    rw [Int.toString_eq_repr, Int.repr_eq_if, integerText]
    obtain hneg | hnonneg := lt_or_ge n.toInt 0
    · rw [if_neg (by omega), if_pos hneg, String.toList_append, Nat.toList_repr,
        show (-n.toInt).toNat = n.toInt.natAbs by omega]
      rfl
    · rw [if_pos hnonneg, if_neg (by omega), Nat.toList_repr,
        show n.toInt.toNat = n.toInt.natAbs by omega]
  rw [htext, Integer.parseInt_eq_some_iff, integer?_integerText]

/-- **Where the readers agree**: they differ on `null`, and where there is no such property. -/
theorem getPIDProperty_eq_getProcessIDFromProperties_iff :
    getPIDProperty p = getProcessIDFromProperties p ↔
      ∃ s, p.lookup pidPropertyKey = some s ∧ s ≠ ['n', 'u', 'l', 'l'] := by
  rw [getPIDProperty, getProcessIDFromProperties]
  cases p.lookup pidPropertyKey with
  | none => simp
  | some s =>
    by_cases hs : s = ['n', 'u', 'l', 'l']
    · subst hs
      simp [show parsePid ['n', 'u', 'l', 'l'] = .error .numberFormat from rfl]
    · simp [hs]

theorem noEmpty_putAll {kvs : List (List Char × List Char)} (hp : p.NoEmpty)
    (h : ∀ kv ∈ kvs, kv.1 ≠ [] ∧ kv.2 ≠ []) : (p.putAll kvs).NoEmpty := by
  induction kvs generalizing p with
  | nil => exact hp
  | cons kv kvs ih =>
    rw [List.forall_mem_cons] at h
    exact ih (hp.insert h.1.1 h.1.2) h.2

theorem defaultProperty_ne_nil (pid : Option ℤ) :
    (defaultProperty pid).1 ≠ [] ∧ (defaultProperty pid).2 ≠ [] := by
  refine ⟨List.cons_ne_nil _ _, ?_⟩
  cases pid with
  | none => exact List.cons_ne_nil _ _
  | some n =>
    rw [defaultProperty, Int.toString_eq_repr, Int.repr_eq_if]
    split
    · rw [Nat.toList_repr]
      exact Nat.toDigits_ne_nil
    · rw [String.toList_append]
      exact List.append_ne_nil_of_left_ne_nil (by decide) _

/-- **What the readers are given**: the properties that were set. -/
theorem Launch.readBack_eq (l : Launch) (h : (setProperties (l.allCalls pid)).ListedBy es) :
    l.readBack es = .ok (some (Properties.putAll ∅ (l.allCalls pid))) := by
  have hne : (Properties.putAll ∅ (l.allCalls pid)).NoEmpty :=
    noEmpty_putAll Properties.noEmpty_empty
      (List.forall_mem_cons.mpr ⟨defaultProperty_ne_nil _, l.calls_ne_nil⟩)
  rw [readBack, scannerTask_printProperties l.unbroken_id l.readsBack_id h l.unbroken_lines
    l.other_lines, parseProperties_entriesText h hne]

theorem Launch.lookup_pid (l : Launch) (pid : Option Int32) :
    (Properties.putAll ∅ (l.allCalls pid)).lookup pidPropertyKey =
      some (defaultProperty (pid.map Int32.toInt)).2 := by
  rw [allCalls, Properties.putAll_cons, Properties.lookup_putAll_of_notMem l.calls_ne_pid]
  exact Finmap.lookup_insert _

/-- `null` is handed over as a text. -/
theorem Launch.readers_none (l : Launch) :
    getPIDProperty (Properties.putAll ∅ (l.allCalls none)) = .error .numberFormat ∧
      getProcessIDFromProperties (Properties.putAll ∅ (l.allCalls none)) = .ok none := by
  have hlookup : (Properties.putAll ∅ (l.allCalls none)).lookup pidPropertyKey =
      some ['n', 'u', 'l', 'l'] := l.lookup_pid none
  rw [getPIDProperty, getProcessIDFromProperties, hlookup]
  exact ⟨rfl, if_pos rfl⟩

/-- A process id is handed over to both readers. -/
theorem Launch.readers_some (l : Launch) (n : Int32) :
    getPIDProperty (Properties.putAll ∅ (l.allCalls (some n))) = .ok (some n) ∧
      getProcessIDFromProperties (Properties.putAll ∅ (l.allCalls (some n))) = .ok (some n) := by
  have hlookup : (Properties.putAll ∅ (l.allCalls (some n))).lookup pidPropertyKey =
      some (toString n.toInt).toList := l.lookup_pid (some n)
  have hpid : parsePid (toString n.toInt).toList = .ok (some n) := by
    rw [parsePid, parseInt_toString]
  have hnull : (toString n.toInt).toList ≠ ['n', 'u', 'l', 'l'] := by
    intro heq
    rw [heq] at hpid
    have hnone : Integer.parseInt ['n', 'u', 'l', 'l'] = none := rfl
    exact absurd hpid (by simp [parsePid, hnone])
  have hagree := getPIDProperty_eq_getProcessIDFromProperties_iff.mpr ⟨_, hlookup, hnull⟩
  have hfirst : getPIDProperty (Properties.putAll ∅ (l.allCalls (some n))) = .ok (some n) := by
    rw [getPIDProperty, hlookup]
    exact hpid
  exact ⟨hfirst, hagree ▸ hfirst⟩

/-- The entries of properties can be listed. -/
theorem exists_listedBy (p : Properties) : ∃ es, p.ListedBy es := by
  refine Finmap.induction_on p fun s => ⟨s.entries.map fun e => (e.1, e.2), ?_, fun k v => ?_⟩
  · rw [List.map_map]
    exact s.nodupKeys
  · rw [Finmap.lookup_toFinmap, ← Option.mem_def, AList.mem_lookup_iff, List.mem_map]
    constructor
    · rintro ⟨⟨a, b⟩, hab, heq⟩
      obtain ⟨rfl, rfl⟩ := Prod.mk.inj heq
      exact hab
    · intro h
      exact ⟨⟨k, v⟩, h, rfl⟩

end Readers

/-! ### Handing the process id over -/

section HandsOver

variable {name : List Char} {l : Launch} {n : Int32}

theorem HasPid.handsOverPid (h : HasPid name n) (l : Launch) : HandsOverPid name l := by
  refine ⟨some n, h.getPID, fun es hes => ?_⟩
  obtain ⟨hfirst, hsecond⟩ := l.readers_some n
  refine ⟨_, some n, l.readBack_eq hes, hfirst, hsecond, fun m => ⟨?_, ?_⟩⟩
  · intro hm
    rwa [← Option.some.inj hm]
  · intro hm
    rw [h.unique hm]

/-- With an `@` the constructor throws, and without one a reader does. -/
theorem not_handsOverPid (h : ∀ n, ¬ HasPid name n) (l : Launch) : ¬ HandsOverPid name l := by
  rintro ⟨pid, hpid, hread⟩
  by_cases hat : '@' ∈ name
  · rw [getPIDFromRuntimeMXBeanName_of_mem hat h] at hpid
    exact absurd hpid (by simp)
  · rw [getPIDFromRuntimeMXBeanName_of_not_mem hat] at hpid
    obtain rfl := Except.ok.inj hpid
    obtain ⟨es, hes⟩ := exists_listedBy (setProperties (l.allCalls none))
    obtain ⟨p, r, hp, hr, -, -⟩ := hread es hes
    rw [l.readBack_eq hes] at hp
    obtain rfl := Option.some.inj (Except.ok.inj hp)
    rw [l.readers_none.1] at hr
    exact absurd hr (by simp)

end HandsOver

/-- **When the process id is handed over**: in every launch, exactly if the name of the runtime has
the form `<int>@<machine>`. -/
theorem handsOverPid_iff (name : List Char) (l : Launch) :
    HandsOverPid name l ↔ ∃ n, HasPid name n := by
  constructor
  · intro h
    by_contra hno
    exact not_handsOverPid (not_exists.mp hno) l h
  · rintro ⟨n, hn⟩
    exact hn.handsOverPid l

/-- A class `App` that sets no properties and prints nothing else. -/
def bareLaunch : Launch where
  charset := .utf8
  separator := .lf
  id := ['A', 'p', 'p']
  calls := []
  lines := []
  unbroken_id := by simp
  readsBack_id := Charset.utf8.readsBack_of_ascii (by simp)
  calls_ne_nil := by simp
  calls_ne_pid := by simp
  unbroken_lines := by simp
  other_lines := by simp

/-- From a name without an `@` no process id is handed over, nor `null`. -/
theorem not_handsOverPid_host : ¬ HandsOverPid ['h', 'o', 's', 't'] bareLaunch := by
  refine not_handsOverPid ?_ bareLaunch
  rintro n ⟨numeral, machine, heq, -⟩
  have hat : '@' ∈ ['h', 'o', 's', 't'] := by
    rw [heq]
    exact List.mem_append_right _ List.mem_cons_self
  exact absurd hat (by simp)

end Shabdiz
