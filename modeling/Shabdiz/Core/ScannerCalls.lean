import Shabdiz.Concurrency.Machine
import Shabdiz.Core.ScannerSchedule

/-!
# Scanners, one call after another

As long as calls do not overlap, membership, the stored future, the flag and the registered
listener of every scanner stay in step, and `setScanEnabled` can iterate over the map although the
listener puts into it. After `shutdown` nothing is scheduled any more.

## Main definitions

* `ScannerSchedule.InStep`, `ScannerSchedule.Inv` — how the four stay in step
* `ScannerSchedule.Stopped` — the state after `shutdown`
* `scannerMachine` — the calls of the methods, in any order

## Main results

* `addScanner_inv`, `removeScanner_inv`, `setEnabled_inv`, `setScanEnabled_inv` — each method keeps
  the invariant
* `shutdown_stopped` — and `shutdown` ends it
* `scanner_schedule` — what that means for the tasks of a scanner
-/

namespace Shabdiz

namespace ScannerSchedule

variable {S : Type} [DecidableEq S]

/-! ### The invariant -/

/-- **How the four stay in step** for one scanner. -/
structure InStep (s : S) (n : ScannerSchedule S) : Prop where
  enabledListeners : n.enabledListeners s = if s ∈ n.scheduledScanners.keys then 1 else 0
  own : ∀ f, n.scheduledScanners.get s = some f → f.scanner = s ∧ f.id < n.nextId
  get_none : s ∉ n.scheduledScanners.keys → n.scheduledScanners.get s = none
  scheduled : s ∈ n.scheduledScanners.keys → n.enabled s = true →
    ∃ f, n.scheduledScanners.get s = some f
  mem_live : ∀ f, f.scanner = s → (f ∈ n.live ↔
    s ∈ n.scheduledScanners.keys ∧ n.enabled s = true ∧ n.scheduledScanners.get s = some f)

/-- The scheduler runs, and every scanner is in step. -/
structure Inv (n : ScannerSchedule S) : Prop where
  isShutdown : n.isShutdown = false
  inStep : ∀ s, n.InStep s

section Inv

variable {s t : S} {n n' : ScannerSchedule S} {enabled : Bool}

/-- A call about another scanner. -/
theorem InStep.frame (h : n.InStep t) (ht : t ≠ s) (hn : OnlyTouches s n n') : n'.InStep t := by
  have hkeys := hn.keys t ht
  have henabled := hn.enabled t ht
  have hget := hn.get t ht
  refine ⟨?_, fun f hf => ?_, ?_, ?_, fun f hf => ?_⟩
  · rw [hn.enabledListeners t ht, h.enabledListeners]
    simp only [hkeys]
  · rw [hget] at hf
    exact ⟨(h.own f hf).1, (h.own f hf).2.trans_le hn.nextId⟩
  · rw [hkeys, hget]
    exact h.get_none
  · rw [hkeys, henabled, hget]
    exact h.scheduled
  · rw [hkeys, henabled, hget, hn.live f (hf ▸ ht)]
    exact h.mem_live f hf

/-- A call about `s` has to keep `s` in step. -/
theorem Inv.of_onlyTouches (h : n.Inv) (hn : OnlyTouches s n n') (hs : n'.InStep s) : n'.Inv := by
  refine ⟨hn.isShutdown.trans h.isShutdown, fun t => ?_⟩
  by_cases ht : t = s
  · exact ht ▸ hs
  · exact (h.inStep t).frame ht hn

theorem inv_empty (enabled : S → Bool) : (empty enabled : ScannerSchedule S).Inv := by
  refine ⟨rfl, fun s => ?_⟩
  constructor <;> simp

theorem Inv.own (h : n.Inv) (s : S) (f : ScheduledFuture S)
    (hf : n.scheduledScanners.get s = some f) : f.scanner = s :=
  ((h.inStep s).own f hf).1

/-- The future that `scheduleScanner` is about to make is not stored. -/
theorem InStep.get_ne (h : n.InStep s) : n.scheduledScanners.get s ≠ some ⟨s, n.nextId⟩ := by
  intro hget
  exact absurd (h.own _ hget).2 (lt_irrefl _)

theorem InStep.notMem_live (h : n.InStep s)
    (hs : ¬ (s ∈ n.scheduledScanners.keys ∧ n.enabled s = true)) {f : ScheduledFuture S}
    (hf : f.scanner = s) : f ∉ n.live := by
  intro hmem
  obtain ⟨hkey, he, -⟩ := (h.mem_live f hf).mp hmem
  exact hs ⟨hkey, he⟩

/-- A scanner that is added is scheduled if it is enabled. -/
theorem addScanner_inv (h : n.Inv) (s : S) : (n.addScanner s).1.Inv := by
  by_cases hs : s ∈ n.scheduledScanners.keys
  · rw [addScanner_of_mem hs]
    exact h
  have hcount : n.enabledListeners s = 0 := by rw [(h.inStep s).enabledListeners, if_neg hs]
  have hdead : ∀ f, f.scanner = s → f ∉ n.live :=
    fun f hf => (h.inStep s).notMem_live (fun hk => hs hk.1) hf
  cases he : n.enabled s with
  | false =>
    rw [addScanner_of_disabled hs he]
    refine h.of_onlyTouches
      (onlyTouches_addEnabledPropertyChangeListener.trans (onlyTouches_put none)) ?_
    refine ⟨by simp [hcount], by simp, by simp, by simp [he], fun f hf => ?_⟩
    simpa [he] using hdead f hf
  | true =>
    rw [addScanner_of_enabled hs he h.isShutdown]
    refine h.of_onlyTouches (onlyTouches_addEnabledPropertyChangeListener.trans
      (onlyTouches_schedule.trans (onlyTouches_put _))) ?_
    refine ⟨by simp [hcount], by simp, by simp, by simp, fun f hf => ?_⟩
    simp [he, hdead f hf, eq_comm]

/-- A scanner that is removed is cancelled. -/
theorem removeScanner_inv (h : n.Inv) (s : S) : (n.removeScanner s).1.Inv := by
  by_cases hs : s ∈ n.scheduledScanners.keys
  · have hcount : n.enabledListeners s = 1 := by rw [(h.inStep s).enabledListeners, if_pos hs]
    rw [removeScanner_of_mem hs]
    refine h.of_onlyTouches (onlyTouches_remove.trans
      ((onlyTouches_cancelIfNotNull (h.own s)).trans
        onlyTouches_removeEnabledPropertyChangeListener)) ?_
    refine ⟨by simp [hcount], by simp, by simp, by simp, fun f hf => ?_⟩
    simp only [removeEnabledPropertyChangeListener_live, mem_live_cancelIfNotNull, remove_live,
      (h.inStep s).mem_live f hf]
    simp
  · rw [removeScanner_of_notMem hs]
    exact h

/-- What `setEnabled` does while the scheduler runs, as the iteration of `setScanEnabled` needs
it: it returns, and does not change the structure of the map. -/
structure Flagged (s : S) (enabled : Bool) (n : ScannerSchedule S)
    (r : ScannerSchedule S × Except ScannerException Unit) : Prop where
  returns : r.2 = .ok ()
  inv : r.1.Inv
  enabled_eq : ∀ t, r.1.enabled t = Function.update n.enabled s enabled t
  keys_eq : r.1.scheduledScanners.keys = n.scheduledScanners.keys
  modCount_eq : r.1.scheduledScanners.modCount = n.scheduledScanners.modCount

/-- Disabling a scanner of the network cancels its task. -/
theorem flagged_disable (h : n.Inv) (hs : s ∈ n.scheduledScanners.keys)
    (he : n.enabled s = true) : Flagged s false n (n.setEnabled s false) := by
  have hcount : n.enabledListeners s = 1 := by rw [(h.inStep s).enabledListeners, if_pos hs]
  rw [setEnabled_of_heard hcount (by simp [he]) propertyChange_false]
  refine ⟨rfl, ?_, by simp, by simp, by simp⟩
  refine h.of_onlyTouches
    ((onlyTouches_setFlag false).trans (onlyTouches_cancelIfNotNull (h.own s))) ?_
  refine ⟨by simp [hcount, hs], by simpa using (h.inStep s).own, by simp [hs], by simp,
    fun f hf => ?_⟩
  simp only [mem_live_cancelIfNotNull, setFlag_live, setFlag_scheduledScanners,
    (h.inStep s).mem_live f hf]
  simp [he]

/-- Enabling a scanner of the network schedules a task. -/
theorem flagged_enable (h : n.Inv) (hs : s ∈ n.scheduledScanners.keys)
    (he : n.enabled s = false) : Flagged s true n (n.setEnabled s true) := by
  have hcount : n.enabledListeners s = 1 := by rw [(h.inStep s).enabledListeners, if_pos hs]
  have hdead : ∀ f, f.scanner = s → f ∉ n.live :=
    fun f hf => (h.inStep s).notMem_live (by simp [he]) hf
  rw [setEnabled_of_heard hcount (by simp [he]) (propertyChange_true h.isShutdown)]
  refine ⟨rfl, ?_, by simp, by simp [hs], by simp [hs]⟩
  refine h.of_onlyTouches ((onlyTouches_setFlag true).trans (onlyTouches_schedule.trans
    ((onlyTouches_put _).trans (onlyTouches_cancelIfNotNull (h.own s))))) ?_
  refine ⟨by simp [hcount, hs], by simp, by simp, by simp, fun f hf => ?_⟩
  have hnew : f = ⟨s, n.nextId⟩ → n.scheduledScanners.get s ≠ some f := by
    rintro rfl
    exact (h.inStep s).get_ne
  simp only [mem_live_cancelIfNotNull, put_live, schedule_live, setFlag_live, setFlag_nextId,
    Finset.mem_insert, hdead f hf, or_false]
  simpa [eq_comm (a := f)] using hnew

/-- **Setting a flag** keeps the invariant. -/
theorem setEnabled_inv (h : n.Inv) (s : S) (enabled : Bool) :
    Flagged s enabled n (n.setEnabled s enabled) := by
  by_cases he : n.enabled s = enabled
  · rw [setEnabled_of_eq he, ← he]
    exact ⟨rfl, h, by simp, rfl, rfl⟩
  by_cases hs : s ∈ n.scheduledScanners.keys
  · cases enabled with
    | false => exact flagged_disable h hs (by simpa using he)
    | true => exact flagged_enable h hs (by simpa using he)
  · have hcount : n.enabledListeners s = 0 := by rw [(h.inStep s).enabledListeners, if_neg hs]
    rw [setEnabled_of_unheard hcount]
    refine ⟨rfl, h.of_onlyTouches (onlyTouches_setFlag enabled) ?_, fun _ => rfl, rfl, rfl⟩
    refine ⟨by simp [hcount, hs], by simpa using (h.inStep s).own,
      fun _ => (h.inStep s).get_none hs, by simp [hs], fun f hf => ?_⟩
    simp [(h.inStep s).mem_live f hf, hs]

/-- **The iteration of `setScanEnabled`** is never disturbed: the listener puts into the map, but
only for keys that are there. -/
theorem setScanEnabledFrom_inv (enabled : Bool) (order : List S) (h : n.Inv) :
    (n.setScanEnabledFrom enabled n.scheduledScanners.modCount order).2 = .ok () ∧
      (n.setScanEnabledFrom enabled n.scheduledScanners.modCount order).1.Inv ∧
      (n.setScanEnabledFrom enabled n.scheduledScanners.modCount order).1.scheduledScanners.keys =
        n.scheduledScanners.keys ∧
      ∀ s, (n.setScanEnabledFrom enabled n.scheduledScanners.modCount order).1.enabled s =
        if s ∈ order then enabled else n.enabled s := by
  induction order generalizing n with
  | nil => exact ⟨rfl, h, rfl, fun s => by simp [setScanEnabledFrom]⟩
  | cons s rest ih =>
    obtain ⟨hret, hinv, henabled, hkeys, hcount⟩ := setEnabled_inv h s enabled
    rw [setScanEnabledFrom, if_pos rfl, andThen_of_ok hret]
    obtain ⟨hret', hinv', hkeys', henabled'⟩ := ih hinv
    rw [hcount] at hret' hinv' hkeys' henabled'
    refine ⟨hret', hinv', hkeys'.trans hkeys, fun t => ?_⟩
    rw [henabled' t, henabled t]
    by_cases ht : t = s <;> simp [ht]

/-- Setting all flags returns, and sets the flag of every scanner of the network. -/
theorem setScanEnabled_inv (h : n.Inv) (enabled : Bool) {order : List S}
    (horder : n.scheduledScanners.Enumerates order) :
    (n.setScanEnabled enabled order).2 = .ok () ∧ (n.setScanEnabled enabled order).1.Inv ∧
      ∀ s ∈ (n.setScanEnabled enabled order).1.scheduledScanners.keys,
        (n.setScanEnabled enabled order).1.enabled s = enabled := by
  obtain ⟨hret, hinv, hkeys, henabled⟩ := setScanEnabledFrom_inv enabled order h
  refine ⟨hret, hinv, fun s hs => ?_⟩
  have hmem : s ∈ order := by
    rw [← List.mem_toFinset, horder.2, ← hkeys]
    exact hs
  rw [setScanEnabled, henabled s, if_pos hmem]

end Inv

/-! ### After `shutdown` -/

/-- Nothing is scheduled and nothing can be. -/
structure Stopped (n : ScannerSchedule S) : Prop where
  isShutdown : n.isShutdown = true
  live : n.live = ∅

section Stopped

variable {s : S} {n : ScannerSchedule S} {enabled : Bool}

omit [DecidableEq S] in
/-- An exception does not wake a stopped network either. -/
theorem Stopped.andThen {α : Type} {r : ScannerSchedule S × Except ScannerException Unit}
    {next : ScannerSchedule S → ScannerSchedule S × Except ScannerException α} (h : r.1.Stopped)
    (hnext : ∀ n : ScannerSchedule S, n.Stopped → (next n).1.Stopped) :
    (ScannerSchedule.andThen r next).1.Stopped := by
  obtain ⟨n, x⟩ := r
  cases x with
  | ok => exact hnext n h
  | error => exact h

theorem live_cancelIfNotNull (future : Option (ScheduledFuture S)) (h : n.live = ∅) :
    (n.cancelIfNotNull future).live = ∅ := by
  ext f
  simp [h]

theorem cancelScheduledScanners_live (order : List S) (h : n.live = ∅) :
    (n.cancelScheduledScanners order).live = ∅ := by
  induction order generalizing n with
  | nil => exact h
  | cons s rest ih => exact ih (live_cancelIfNotNull _ h)

theorem Stopped.scheduleScanner (h : n.Stopped) (s : S) : n.scheduleScanner s = none := by
  simp [ScannerSchedule.scheduleScanner, h.isShutdown]

theorem Stopped.cancelIfNotNull (h : n.Stopped) (future : Option (ScheduledFuture S)) :
    (n.cancelIfNotNull future).Stopped :=
  ⟨by simpa using h.isShutdown, live_cancelIfNotNull future h.live⟩

theorem Stopped.propertyChange (h : n.Stopped) (s : S) (enabled : Bool) :
    (n.propertyChange s enabled).1.Stopped := by
  cases enabled with
  | false =>
    rw [propertyChange_false]
    exact h.cancelIfNotNull _
  | true => simpa [ScannerSchedule.propertyChange, h.scheduleScanner] using h

theorem Stopped.notifyListeners (h : n.Stopped) (s : S) (enabled : Bool) (count : Nat) :
    (n.notifyListeners s enabled count).1.Stopped := by
  induction count generalizing n with
  | zero => exact h
  | succ count ih => exact (h.propertyChange s enabled).andThen fun _ => ih

theorem Stopped.setEnabled (h : n.Stopped) (s : S) (enabled : Bool) :
    (n.setEnabled s enabled).1.Stopped := by
  have hflag : (n.setFlag s enabled).Stopped := ⟨h.isShutdown, h.live⟩
  rw [ScannerSchedule.setEnabled, firePropertyChange]
  split
  · exact hflag
  · exact hflag.notifyListeners s enabled _

theorem Stopped.addScanner (h : n.Stopped) (s : S) : (n.addScanner s).1.Stopped := by
  have hadd : (n.addEnabledPropertyChangeListener s).Stopped := ⟨h.isShutdown, h.live⟩
  simp only [ScannerSchedule.addScanner, hadd.scheduleScanner]
  split
  · exact h
  · split
    · exact hadd
    · exact ⟨h.isShutdown, h.live⟩

theorem Stopped.removeScanner (h : n.Stopped) (s : S) : (n.removeScanner s).1.Stopped := by
  rw [ScannerSchedule.removeScanner]
  split
  · have hcancel := Stopped.cancelIfNotNull (n := n.remove s) ⟨h.isShutdown, h.live⟩
      (n.scheduledScanners.get s)
    exact ⟨hcancel.isShutdown, hcancel.live⟩
  · exact h

theorem Stopped.setScanEnabledFrom (h : n.Stopped) (enabled : Bool) (modCount : Nat)
    (order : List S) : (n.setScanEnabledFrom enabled modCount order).1.Stopped := by
  induction order generalizing n with
  | nil => exact h
  | cons s rest ih =>
    rw [ScannerSchedule.setScanEnabledFrom]
    split
    · exact (h.setEnabled s enabled).andThen fun _ => ih
    · exact h

theorem Stopped.setScanEnabled (h : n.Stopped) (enabled : Bool) (order : List S) :
    (n.setScanEnabled enabled order).1.Stopped :=
  h.setScanEnabledFrom enabled _ order

theorem Stopped.shutdown (h : n.Stopped) (order : List S) : (n.shutdown order).1.Stopped :=
  (h.setScanEnabled false order).andThen fun _ h₁ =>
    ⟨rfl, cancelScheduledScanners_live order h₁.live⟩

/-- **`shutdown` stops a running network.** Disabling its scanners has already cancelled them. -/
theorem shutdown_stopped (h : n.Inv) {order : List S}
    (horder : n.scheduledScanners.Enumerates order) :
    (n.shutdown order).2 = .ok () ∧ (n.shutdown order).1.Stopped := by
  obtain ⟨hret, hinv, hoff⟩ := setScanEnabled_inv h false horder
  rw [shutdown, andThen_of_ok hret]
  refine ⟨rfl, rfl, cancelScheduledScanners_live order ?_⟩
  ext f
  simp only [(hinv.inStep f.scanner).mem_live f rfl, Finset.notMem_empty, iff_false]
  rintro ⟨hkey, he, -⟩
  rw [hoff _ hkey] at he
  cases he

end Stopped

end ScannerSchedule

/-! ### Calls in sequence -/

/-- A call of one of the methods, with the order in which its iteration will go. -/
inductive ScannerCall (S : Type) where
  | addScanner (s : S)
  | removeScanner (s : S)
  | setEnabled (s : S) (enabled : Bool)
  | setScanEnabled (enabled : Bool) (order : List S)
  | shutdown (order : List S)
deriving DecidableEq

variable {S : Type} [DecidableEq S]

/-- The schedule after a call, whether it returns or throws; `none` if the call iterates and the
order is not one of the map's. -/
def ScannerCall.perform (n : ScannerSchedule S) : ScannerCall S → Option (ScannerSchedule S)
  | addScanner s => some (n.addScanner s).1
  | removeScanner s => some (n.removeScanner s).1
  | setEnabled s enabled => some (n.setEnabled s enabled).1
  | setScanEnabled enabled order =>
    if n.scheduledScanners.Enumerates order then some (n.setScanEnabled enabled order).1 else none
  | shutdown order =>
    if n.scheduledScanners.Enumerates order then some (n.shutdown order).1 else none

/-- A new network, whatever the flags of its scanners, and any sequence of calls. -/
def scannerMachine (autoKill autoDeploy autoRemove status : S) :
    Machine (ScannerSchedule S) (ScannerCall S) where
  init n := ∃ enabled, n = .new enabled autoKill autoDeploy autoRemove status
  step := ScannerCall.perform

/-- A call other than `shutdown`. -/
def BeforeShutdown (_ : ScannerSchedule S) (call : ScannerCall S) : Prop :=
  (call matches .shutdown _) = false

instance (n : ScannerSchedule S) (call : ScannerCall S) : Decidable (BeforeShutdown n call) :=
  inferInstanceAs (Decidable (_ = false))

/-! ### One call, a sequence of calls -/

section Machine

variable {autoKill autoDeploy autoRemove status : S} {n n' n'' : ScannerSchedule S}
  {call : ScannerCall S}

theorem inv_of_perform (h : n.Inv) (hcall : BeforeShutdown n call)
    (hs : call.perform n = some n') : n'.Inv := by
  cases call with
  | addScanner s => exact Option.some.inj hs ▸ ScannerSchedule.addScanner_inv h s
  | removeScanner s => exact Option.some.inj hs ▸ ScannerSchedule.removeScanner_inv h s
  | setEnabled s enabled =>
    exact Option.some.inj hs ▸ (ScannerSchedule.setEnabled_inv h s enabled).inv
  | setScanEnabled enabled order =>
    obtain ⟨horder, hs⟩ := Option.ite_none_right_eq_some.mp hs
    exact Option.some.inj hs ▸ (ScannerSchedule.setScanEnabled_inv h enabled horder).2.1
  | shutdown order => simp [BeforeShutdown] at hcall

/-- `shutdown` stops a network that runs. -/
theorem stopped_of_shutdown {order : List S} (h : n.Inv)
    (hs : (ScannerCall.shutdown order).perform n = some n') : n'.Stopped := by
  obtain ⟨horder, hs⟩ := Option.ite_none_right_eq_some.mp hs
  exact Option.some.inj hs ▸ (ScannerSchedule.shutdown_stopped h horder).2

/-- No call makes a stopped network run. -/
theorem stopped_of_perform (h : n.Stopped) (hs : call.perform n = some n') : n'.Stopped := by
  cases call with
  | addScanner s => exact Option.some.inj hs ▸ h.addScanner s
  | removeScanner s => exact Option.some.inj hs ▸ h.removeScanner s
  | setEnabled s enabled => exact Option.some.inj hs ▸ h.setEnabled s enabled
  | setScanEnabled enabled order =>
    obtain ⟨-, hs⟩ := Option.ite_none_right_eq_some.mp hs
    exact Option.some.inj hs ▸ h.setScanEnabled enabled order
  | shutdown order =>
    obtain ⟨-, hs⟩ := Option.ite_none_right_eq_some.mp hs
    exact Option.some.inj hs ▸ h.shutdown order

theorem inv_new (enabled : S → Bool) :
    (ScannerSchedule.new enabled autoKill autoDeploy autoRemove status).Inv := by
  unfold ScannerSchedule.new
  iterate 4 apply ScannerSchedule.addScanner_inv
  exact ScannerSchedule.inv_empty enabled

theorem inv_of_reachable
    (h : (scannerMachine autoKill autoDeploy autoRemove status).ReachableOf BeforeShutdown n) :
    n.Inv := by
  refine h.invariant ?_ fun n call n' _ hn hcall hs => inv_of_perform hn hcall hs
  rintro n ⟨enabled, rfl⟩
  exact inv_new enabled

/-- A network runs or is stopped, at every point. -/
theorem inv_or_stopped_of_reachable
    (h : (scannerMachine autoKill autoDeploy autoRemove status).Reachable n) :
    n.Inv ∨ n.Stopped := by
  refine h.invariant (I := fun n => n.Inv ∨ n.Stopped) ?_ fun n call n' _ hn _ hs => ?_
  · rintro n ⟨enabled, rfl⟩
    exact Or.inl (inv_new enabled)
  · obtain hn | hn := hn
    · by_cases hcall : BeforeShutdown n call
      · exact Or.inl (inv_of_perform hn hcall hs)
      · cases call with
        | shutdown order => exact Or.inr (stopped_of_shutdown hn hs)
        | _ => simp [BeforeShutdown] at hcall
    · exact Or.inr (stopped_of_perform hn hs)

theorem stopped_of_run (h : n.Stopped)
    (hr : (scannerMachine autoKill autoDeploy autoRemove status).Run n n') : n'.Stopped :=
  hr.invariant h fun _ _ _ _ hu _ hs => stopped_of_perform hu hs

/-- What can be said of a network between two calls: the tasks, the listener, and what `addScanner`
and `removeScanner` would return. -/
structure Scheduled (n : ScannerSchedule S) : Prop where
  atMostOne : ∀ s, (n.liveTasks s).card ≤ 1
  one_iff : ∀ s, (n.liveTasks s).card = 1 ↔ n.isAdded s = true ∧ n.enabled s = true
  listening : ∀ s, n.enabledListeners s = if n.isAdded s = true then 1 else 0
  addScanner : ∀ s, ∃ added, (n.addScanner s).2 = .ok added ∧
    (added = true ↔ (n.addScanner s).1.scheduledScanners.keys ≠ n.scheduledScanners.keys)
  removeScanner : ∀ s, ∃ removed, (n.removeScanner s).2 = .ok removed ∧
    (removed = true ↔ (n.removeScanner s).1.scheduledScanners.keys ≠ n.scheduledScanners.keys)

/-- The live task of an enabled scanner of the network is the stored one. -/
theorem liveTasks_of_inv (h : n.Inv) (s : S) :
    (n.isAdded s = true ∧ n.enabled s = true → ∃ f, n.liveTasks s = {f}) ∧
      (¬ (n.isAdded s = true ∧ n.enabled s = true) → n.liveTasks s = ∅) := by
  have hmem : ∀ f, f ∈ n.liveTasks s ↔ f ∈ n.live ∧ f.scanner = s := fun f => Finset.mem_filter
  constructor
  · rintro ⟨hadded, he⟩
    have hs := ScannerSchedule.isAdded_iff.mp hadded
    obtain ⟨f, hf⟩ := (h.inStep s).scheduled hs he
    refine ⟨f, Finset.ext fun g => ?_⟩
    rw [hmem, Finset.mem_singleton]
    constructor
    · rintro ⟨hg, rfl⟩
      have hget := (((h.inStep g.scanner).mem_live g rfl).mp hg).2.2
      exact Option.some.inj (hget.symm.trans hf)
    · rintro rfl
      have hown := h.own s g hf
      exact ⟨((h.inStep s).mem_live g hown).mpr ⟨hs, he, hf⟩, hown⟩
  · intro hnot
    refine Finset.eq_empty_of_forall_notMem fun g hg => ?_
    obtain ⟨hlive, rfl⟩ := (hmem g).mp hg
    refine (h.inStep g.scanner).notMem_live ?_ rfl hlive
    rwa [← ScannerSchedule.isAdded_iff]

theorem scheduled_of_inv (h : n.Inv) : Scheduled n := by
  refine ⟨fun s => ?_, fun s => ?_, fun s => ?_, fun s => ?_, fun s => ?_⟩
  · by_cases hs : n.isAdded s = true ∧ n.enabled s = true
    · obtain ⟨f, hf⟩ := (liveTasks_of_inv h s).1 hs
      simp [hf]
    · simp [(liveTasks_of_inv h s).2 hs]
  · by_cases hs : n.isAdded s = true ∧ n.enabled s = true
    · obtain ⟨f, hf⟩ := (liveTasks_of_inv h s).1 hs
      simp [hf, hs]
    · simp only [(liveTasks_of_inv h s).2 hs, hs]
      simp
  · simp only [(h.inStep s).enabledListeners, ScannerSchedule.isAdded_iff]
  · by_cases hs : s ∈ n.scheduledScanners.keys
    · rw [ScannerSchedule.addScanner_of_mem hs]
      exact ⟨false, rfl, by simp⟩
    · refine ⟨true, ?_⟩
      cases he : n.enabled s with
      | false =>
        rw [ScannerSchedule.addScanner_of_disabled hs he]
        simp [hs]
      | true =>
        rw [ScannerSchedule.addScanner_of_enabled hs he h.isShutdown]
        simp [hs]
  · by_cases hs : s ∈ n.scheduledScanners.keys
    · rw [ScannerSchedule.removeScanner_of_mem hs]
      exact ⟨true, rfl, by simp [hs]⟩
    · rw [ScannerSchedule.removeScanner_of_notMem hs]
      exact ⟨false, rfl, by simp⟩

/-- **The schedule of a network's scanners.** Until `shutdown` is called a scanner has a live task,
one, exactly when it is a scanner of the network and enabled, and the listener is registered on
exactly the scanners of the network. Once `shutdown` has been called no scanner has a live task,
whatever is called later. -/
theorem scanner_schedule :
    (∀ n, (scannerMachine autoKill autoDeploy autoRemove status).ReachableOf BeforeShutdown n →
      Scheduled n) ∧
    ∀ n order n' n'', (scannerMachine autoKill autoDeploy autoRemove status).Reachable n →
      (scannerMachine autoKill autoDeploy autoRemove status).step n (.shutdown order) = some n' →
      (scannerMachine autoKill autoDeploy autoRemove status).Run n' n'' →
      ∀ s, n''.liveTasks s = ∅ := by
  refine ⟨fun n h => scheduled_of_inv (inv_of_reachable h), ?_⟩
  intro n order n' n'' h hs hr s
  have hn' : n'.Stopped := by
    -- only the first `shutdown` finds the scheduler running
    obtain hn | hn := inv_or_stopped_of_reachable h
    · exact stopped_of_shutdown hn hs
    · have hs : (ScannerCall.shutdown order).perform n = some n' := hs
      exact stopped_of_perform hn hs
  rw [ScannerSchedule.liveTasks, (stopped_of_run hn' hr).live, Finset.filter_empty]

end Machine

/-- The default scanners are `0` to `3`, and only `3` is enabled at first. All scanners are
enabled, then another enabled one, `4`, is added; the network is shut down and `0` is enabled. -/
theorem scanner_schedule_shutdown :
    ∃ n n' : ScannerSchedule Nat, Scheduled n ∧ (n.liveTasks 0).card = 1 ∧
      (n.liveTasks 4).card = 1 ∧ n'.enabled 0 = true ∧ ∀ s, n'.liveTasks s = ∅ := by
  have hinit : (scannerMachine 0 1 2 3).init (.new (fun s => 3 ≤ s) 0 1 2 3) := ⟨_, rfl⟩
  obtain ⟨n, hr, hn⟩ := (scannerMachine 0 1 2 3).exists_runOf_of_execOf BeforeShutdown
    (.new (fun s => 3 ≤ s) 0 1 2 3) [.setScanEnabled true [0, 1, 2, 3], .addScanner 4]
    (fun n => (n.liveTasks 0).card = 1 ∧ (n.liveTasks 4).card = 1 ∧
      ((scannerMachine 0 1 2 3).step n (.shutdown [4, 3, 2, 1, 0])).any fun n' =>
        ((scannerMachine 0 1 2 3).exec n' [.setEnabled 0 true]).any fun n'' => n''.enabled 0)
    (by decide)
  obtain ⟨h₀, h₄, hany⟩ := of_decide_eq_true hn
  obtain ⟨n', hs, hany⟩ := (Option.any_eq_true _ _).mp hany
  obtain ⟨n'', hr', he⟩ := Machine.exists_run_of_exec _ _ _ _ hany
  have hn := Machine.ReachableOf.reachable ⟨_, hinit, hr⟩
  exact ⟨n, n'', scanner_schedule.1 n ⟨_, hinit, hr⟩, h₀, h₄, he,
    scanner_schedule.2 n _ n' n'' hn hs hr'⟩

end Shabdiz
