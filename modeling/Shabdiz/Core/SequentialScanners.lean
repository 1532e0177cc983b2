import Shabdiz.Core.ScannerCalls
import Shabdiz.Core.SharedSchedule

/-!
# Scanner calls that do not overlap

The methods are there twice: as functions on a schedule, for calls one after another, and as steps
on the shared schedule, for calls that overlap. The second refines the first: a call that finds the
monitor free, and whose steps no other call interrupts, does what the function does, and leaves the
monitor free. So every sequence of calls is one of the runs of the interleaved calls.

## Main definitions

* `AddScannerPoint.ofResult`, `SetEnabledPoint.ofResult`, `SetScanEnabledPoint.ofResult` — where a
  method ends
* `ScannerCall.operation` — a call in sequence as one of the overlapping calls

## Main results

* `addScanner_alone`, `removeScanner_alone`, `setEnabled_alone`, `setScanEnabled_alone` — the
  methods, step by step
* `exists_run_of_perform` — a call that is not interrupted
* `exists_run_of_exec_scannerMachine` — a sequence of calls
-/

namespace Shabdiz

variable {ι S : Type} [DecidableEq ι] [DecidableEq S]

/-! ### Steps of one method -/

/-- A number of steps of one method. -/
abbrev MethodSteps {M P : Type} (f : M → P → Option (M × P)) : M × P → M × P → Prop :=
  Relation.ReflTransGen fun x y => f x.1 x.2 = some y

/-- The last point of a call that ended so. -/
def AddScannerPoint.ofResult : Except ScannerException Bool → AddScannerPoint
  | .ok added => .returned added
  | .error _ => .thrown

/-- The last point of a call that ended so. -/
def SetEnabledPoint.ofResult : Except ScannerException Unit → SetEnabledPoint
  | .ok () => .returned
  | .error _ => .thrown

/-- The last point of a call that ended so. -/
def SetScanEnabledPoint.ofResult : Except ScannerException Unit → SetScanEnabledPoint S
  | .ok () => .returned
  | .error _ => .thrown

section Methods

variable {m : SharedSchedule ι S} {i : ι} {s : S} {enabled : Bool} {order : List S}

omit [DecidableEq ι] [DecidableEq S] in
theorem enter_of_free (hm : m.monitor = none) (i : ι) : m.enter i = some (m.hold i) := by
  rw [SharedSchedule.enter, hm]
  rfl

omit [DecidableEq ι] in
theorem addScanner_alone (hm : m.monitor = none) (i : ι) (s : S) :
    ∃ m', MethodSteps (fun m => m.addScanner i s) (m, .entry)
        (m', .ofResult (m.schedule.addScanner s).2) ∧
      m'.schedule = (m.schedule.addScanner s).1 ∧ m'.monitor = none := by
  have hentry : m.addScanner i s .entry = some (m.hold i, .locked) := by
    rw [SharedSchedule.addScanner, enter_of_free hm]
    rfl
  by_cases hadded : m.schedule.isAdded s
  · rw [ScannerSchedule.addScanner, if_pos hadded]
    exact ⟨(m.hold i).leave, .head hentry (.single (if_pos hadded)), rfl, rfl⟩
  · have hs : s ∉ m.schedule.scheduledScanners.keys := mt ScannerSchedule.isAdded_iff.mpr hadded
    let m₁ := (m.hold i).update (·.addEnabledPropertyChangeListener s)
    have hlocked : (m.hold i).addScanner i s .locked = some (m₁, .listening) := if_neg hadded
    have hlistening : m₁.addScanner i s .listening = some (m₁, .read (m.schedule.enabled s)) := rfl
    cases he : m.schedule.enabled s with
    | false =>
      rw [he] at hlistening
      rw [ScannerSchedule.addScanner_of_disabled hs he]
      exact ⟨_, .head hentry (.head hlocked (.head hlistening (.single rfl))), rfl, rfl⟩
    | true =>
      rw [he] at hlistening
      cases hdown : m.schedule.isShutdown with
      | true =>
        have hscheduled : m₁.schedule.scheduleScanner s = none := if_pos hdown
        have hread : m₁.addScanner i s (.read true) = some (m₁.leave, .thrown) := by
          rw [SharedSchedule.addScanner, if_pos rfl, hscheduled]
        rw [ScannerSchedule.addScanner_of_isShutdown hs he hdown]
        exact ⟨_, .head hentry (.head hlocked (.head hlistening (.single hread))), rfl, rfl⟩
      | false =>
        have hscheduled : m₁.schedule.scheduleScanner s =
            some (m₁.schedule.schedule s, ⟨s, m.schedule.nextId⟩) :=
          if_neg (by rw [Bool.not_eq_true]; exact hdown)
        have hread : m₁.addScanner i s (.read true) =
            some (((m₁.update fun _ => (m₁.schedule.schedule s).put s
              (some ⟨s, m.schedule.nextId⟩)).record (.added i s)).leave, .returned true) := by
          rw [SharedSchedule.addScanner, if_pos rfl, hscheduled]
        rw [ScannerSchedule.addScanner_of_enabled hs he hdown]
        exact ⟨_, .head hentry (.head hlocked (.head hlistening (.single hread))), rfl, rfl⟩

omit [DecidableEq ι] in
theorem removeScanner_alone (hm : m.monitor = none) (i : ι) (s : S) :
    ∃ m' removed, (m.schedule.removeScanner s).2 = .ok removed ∧
      MethodSteps (fun m => m.removeScanner i s) (m, .entry) (m', .returned removed) ∧
      m'.schedule = (m.schedule.removeScanner s).1 ∧ m'.monitor = none := by
  have hfree : m.monitor.isNone = true := by rw [hm]; rfl
  by_cases hadded : m.schedule.isAdded s
  · rw [ScannerSchedule.removeScanner, if_pos hadded]
    have hentry : m.removeScanner i s .entry =
        some ((m.update (·.remove s)).record (.removed i s),
          .removed (m.schedule.scheduledScanners.get s)) := by
      rw [SharedSchedule.removeScanner, if_pos hfree, if_pos hadded]
    exact ⟨_, true, rfl, .head hentry (.head rfl (.single rfl)), rfl, hm⟩
  · rw [ScannerSchedule.removeScanner, if_neg hadded]
    have hentry : m.removeScanner i s .entry = some (m, .returned false) := by
      rw [SharedSchedule.removeScanner, if_pos hfree, if_neg hadded]
    exact ⟨m, false, rfl, .single hentry, rfl, hm⟩

/-- The notifications of the listener, one step each. -/
theorem notifyListeners_alone (hm : m.monitor = none ∨ m.monitor = some i) (s : S)
    (enabled : Bool) (count : ℕ) :
    ∃ m', MethodSteps (fun m => m.setEnabled i s enabled) (m, .notifying count)
        (m', .ofResult (m.schedule.notifyListeners s enabled count).2) ∧
      m'.schedule = (m.schedule.notifyListeners s enabled count).1 ∧ m'.monitor = m.monitor := by
  induction count generalizing m with
  | zero => exact ⟨m, .single rfl, rfl, rfl⟩
  | succ count ih =>
    obtain ⟨n, result, hn⟩ : ∃ n result, m.schedule.propertyChange s enabled = (n, result) :=
      ⟨_, _, rfl⟩
    rw [ScannerSchedule.notifyListeners, hn]
    cases result with
    | error e =>
      have hstep : m.setEnabled i s enabled (.notifying (count + 1)) =
          some (m.update fun _ => n, .thrown) := by
        rw [SharedSchedule.setEnabled, if_pos hm, hn]
      exact ⟨_, .single hstep, rfl, rfl⟩
    | ok _ =>
      have hstep : m.setEnabled i s enabled (.notifying (count + 1)) =
          some (m.update fun _ => n, .notifying count) := by
        rw [SharedSchedule.setEnabled, if_pos hm, hn]
      obtain ⟨m', hsteps, hschedule, hmonitor⟩ := ih (m := m.update fun _ => n) hm
      exact ⟨m', .head hstep hsteps, hschedule, hmonitor⟩

theorem setEnabled_alone (hm : m.monitor = none ∨ m.monitor = some i) (s : S) (enabled : Bool) :
    ∃ m', MethodSteps (fun m => m.setEnabled i s enabled) (m, .entry)
        (m', .ofResult (m.schedule.setEnabled s enabled).2) ∧
      m'.schedule = (m.schedule.setEnabled s enabled).1 ∧ m'.monitor = m.monitor := by
  let m₁ := m.update (·.setFlag s enabled)
  have hentry : m.setEnabled i s enabled .entry = some (m₁, .swapped (m.schedule.enabled s)) := rfl
  rw [ScannerSchedule.setEnabled, ScannerSchedule.firePropertyChange]
  by_cases hsame : m.schedule.enabled s = enabled
  · have hswapped : m₁.setEnabled i s enabled (.swapped (m.schedule.enabled s)) =
        some (m₁, .returned) := by
      rw [SharedSchedule.setEnabled, if_pos hsame]
    rw [if_pos hsame]
    exact ⟨m₁, .head hentry (.single hswapped), rfl, rfl⟩
  · have hswapped : m₁.setEnabled i s enabled (.swapped (m.schedule.enabled s)) =
        some (m₁, .notifying (m₁.schedule.enabledListeners s)) := by
      rw [SharedSchedule.setEnabled, if_neg hsame]
    rw [if_neg hsame]
    obtain ⟨m', hsteps, hschedule, hmonitor⟩ :=
      notifyListeners_alone (m := m₁) hm s enabled (m₁.schedule.enabledListeners s)
    exact ⟨m', .head hentry (.head hswapped hsteps), hschedule, hmonitor⟩

/-- A step of `setEnabled` is one of the iteration it is called from. -/
theorem setScanEnabled_setting {m' : SharedSchedule ι S} {p p' : SetEnabledPoint}
    (h : m.setEnabled i s enabled p = some (m', p')) (rest : List S) (modCount : ℕ) :
    m.setScanEnabled i enabled order (.setting s p rest modCount) =
      some (m', .setting s p' rest modCount) := by
  cases p with
  | entry => rw [SharedSchedule.setScanEnabled, h, Option.map_some] <;> rintro ⟨⟩
  | swapped old => rw [SharedSchedule.setScanEnabled, h, Option.map_some] <;> rintro ⟨⟩
  | notifying count => rw [SharedSchedule.setScanEnabled, h, Option.map_some] <;> rintro ⟨⟩
  | returned => exact absurd h (by simp [SharedSchedule.setEnabled])
  | thrown => exact absurd h (by simp [SharedSchedule.setEnabled])

/-- The iteration, from inside the monitor. -/
theorem setScanEnabledFrom_alone (hm : m.monitor = some i) (enabled : Bool) (order : List S)
    (modCount : ℕ) (rest : List S) :
    ∃ m', MethodSteps (fun m => m.setScanEnabled i enabled order) (m, .iterating rest modCount)
        (m', .ofResult (m.schedule.setScanEnabledFrom enabled modCount rest).2) ∧
      m'.schedule = (m.schedule.setScanEnabledFrom enabled modCount rest).1 ∧
      m'.monitor = none := by
  induction rest generalizing m with
  | nil => exact ⟨m.leave, .single rfl, rfl, rfl⟩
  | cons s rest ih =>
    rw [ScannerSchedule.setScanEnabledFrom]
    by_cases hcount : m.schedule.scheduledScanners.modCount = modCount
    · have hstart : m.setScanEnabled i enabled order (.iterating (s :: rest) modCount) =
          some (m, .setting s .entry rest modCount) :=
        if_pos hcount
      obtain ⟨m₁, hsteps, hschedule, hmonitor⟩ := setEnabled_alone (Or.inr hm) s enabled
      have hsetting : MethodSteps (fun m => m.setScanEnabled i enabled order)
          (m, .setting s .entry rest modCount)
          (m₁, .setting s (.ofResult (m.schedule.setEnabled s enabled).2) rest modCount) :=
        Relation.ReflTransGen.lift
          (fun x => (x.1, SetScanEnabledPoint.setting s x.2 rest modCount))
          (fun _ _ hxy => setScanEnabled_setting hxy rest modCount) _ _ hsteps
      obtain ⟨n, result, hn⟩ : ∃ n result, m.schedule.setEnabled s enabled = (n, result) :=
        ⟨_, _, rfl⟩
      rw [if_pos hcount, hn]
      rw [hn] at hsetting hschedule
      cases result with
      | error e => exact ⟨m₁.leave, .head hstart (hsetting.tail rfl), hschedule, rfl⟩
      | ok _ =>
        obtain ⟨m', hrest, hschedule', hmonitor'⟩ := ih (hmonitor.trans hm)
        rw [hschedule] at hrest hschedule'
        exact ⟨m', .head hstart ((hsetting.tail rfl).trans hrest), hschedule', hmonitor'⟩
    · have hthrown : m.setScanEnabled i enabled order (.iterating (s :: rest) modCount) =
          some (m.leave, .thrown) :=
        if_neg hcount
      rw [if_neg hcount]
      exact ⟨m.leave, .single hthrown, rfl, rfl⟩

theorem setScanEnabled_alone (hm : m.monitor = none) (i : ι) (enabled : Bool)
    (horder : m.schedule.scheduledScanners.Enumerates order) :
    ∃ m', MethodSteps (fun m => m.setScanEnabled i enabled order) (m, .entry)
        (m', .ofResult (m.schedule.setScanEnabled enabled order).2) ∧
      m'.schedule = (m.schedule.setScanEnabled enabled order).1 ∧ m'.monitor = none := by
  have hentry : m.setScanEnabled i enabled order .entry =
      some (m.hold i, .iterating order m.schedule.scheduledScanners.modCount) := by
    rw [SharedSchedule.setScanEnabled, if_pos horder, enter_of_free hm]
    rfl
  obtain ⟨m', hsteps, h⟩ := setScanEnabledFrom_alone (m := m.hold i) rfl enabled order
    m.schedule.scheduledScanners.modCount order
  exact ⟨m', .head hentry hsteps, h⟩

end Methods

/-! ### Calls in sequence -/

/-- A call in sequence as one that others may overlap. Nothing overlaps `shutdown` here. -/
def ScannerCall.operation : ScannerCall S → Option (ScannerOperation S)
  | addScanner s => some (.addScanner s)
  | removeScanner s => some (.removeScanner s)
  | setEnabled s enabled => some (.setEnabled s enabled)
  | setScanEnabled enabled _ => some (.setScanEnabled enabled)
  | shutdown _ => none

section Calls

variable {n n' : ScannerSchedule S} {m : SharedSchedule ι S} {c : ScannerConfig ι S} {i : ι}
  {call : ScannerCall S} {o : ScannerOperation S}

/-- The steps of a method are those of a call of it. -/
theorem alone_of_methodSteps {P : Type} {g : P → RunningCall S}
    {f : SharedSchedule ι S → P → Option (SharedSchedule ι S × P)} {x y : SharedSchedule ι S × P}
    (order : List S)
    (hg : ∀ m p, (g p).next i order m = (f m p).map fun r => (r.1, g r.2))
    (h : MethodSteps f x y) : (scannerCalls ι n).Alone i (x.1, g x.2) (y.1, g y.2) := by
  refine Relation.ReflTransGen.lift (fun x => (x.1, g x.2)) ?_ _ _ h
  intro x y hxy
  refine ⟨order, ?_⟩
  rw [scannerCalls_next, hg, hxy, Option.map_some]

/-- **A call that runs alone** from a free monitor does what the call in sequence does, and leaves
the monitor free. -/
theorem alone_of_perform (hm : m.monitor = none) (ho : call.operation = some o)
    (h : call.perform m.schedule = some n') :
    ∃ m' k', (scannerCalls ι n).Alone i (m, o.start) (m', k') ∧ k'.isOver = true ∧
      m'.schedule = n' ∧ m'.monitor = none := by
  cases call with
  | addScanner s =>
    obtain rfl := Option.some.inj ho
    obtain rfl := Option.some.inj h
    obtain ⟨m', hsteps, hschedule, hmonitor⟩ := addScanner_alone hm i s
    refine ⟨m', _, alone_of_methodSteps [] (fun _ _ => rfl) hsteps, ?_, hschedule,
      hmonitor⟩
    cases (m.schedule.addScanner s).2 <;> rfl
  | removeScanner s =>
    obtain rfl := Option.some.inj ho
    obtain rfl := Option.some.inj h
    obtain ⟨m', removed, -, hsteps, hschedule, hmonitor⟩ := removeScanner_alone hm i s
    exact ⟨m', _, alone_of_methodSteps [] (fun _ _ => rfl) hsteps, rfl, hschedule,
      hmonitor⟩
  | setEnabled s enabled =>
    obtain rfl := Option.some.inj ho
    obtain rfl := Option.some.inj h
    obtain ⟨m', hsteps, hschedule, hmonitor⟩ := setEnabled_alone (Or.inl hm) s enabled
    refine ⟨m', _, alone_of_methodSteps [] (fun _ _ => rfl) hsteps, ?_, hschedule,
      hmonitor.trans hm⟩
    cases (m.schedule.setEnabled s enabled).2 <;> rfl
  | setScanEnabled enabled order =>
    obtain rfl := Option.some.inj ho
    obtain ⟨horder, h⟩ := Option.ite_none_right_eq_some.mp h
    obtain rfl := Option.some.inj h
    obtain ⟨m', hsteps, hschedule, hmonitor⟩ := setScanEnabled_alone hm i enabled horder
    refine ⟨m', _, alone_of_methodSteps order (fun _ _ => rfl) hsteps, ?_, hschedule,
      hmonitor⟩
    cases (m.schedule.setScanEnabled enabled order).2 <;> rfl
  | shutdown order => exact absurd ho (by simp [ScannerCall.operation])

/-- A call in sequence is a run of the calls that may overlap, and no other thread moves in it. -/
theorem exists_run_of_perform (hm : c.shared.monitor = none) (hi : c.thread i = .ready o)
    (ho : call.operation = some o) (h : call.perform c.shared.schedule = some n') :
    ∃ c', (sharedMachine ι n).Run c c' ∧ c'.shared.schedule = n' ∧ c'.shared.monitor = none ∧
      (∃ k, c'.thread i = .running k ∧ k.isOver = true) ∧
      ∀ j, j ≠ i → c'.thread j = c.thread j := by
  let c₁ : ScannerConfig ι S := ⟨c.shared, Function.update c.thread i (.running o.start)⟩
  have hbegin : (sharedMachine ι n).step c (i, []) = some c₁ := by
    simp only [sharedMachine, Interleaving.machine, hi]
    rfl
  obtain ⟨m', k', halone, hover, hschedule, hmonitor⟩ :=
    alone_of_perform (n := n) (i := i) hm ho h
  have hrun := Interleaving.run_of_alone (c := c₁) halone (Function.update_self ..)
  refine ⟨_, Machine.RunOf.head trivial hbegin hrun, hschedule, hmonitor,
    ⟨k', Function.update_self .., hover⟩, ?_⟩
  intro j hj
  exact (Function.update_of_ne hj _ _).trans (Function.update_of_ne hj _ _)

/-- **Calls in sequence are runs** of the calls that may overlap: each is made by a thread of its
own, one after the other. -/
theorem exists_run_of_exec_scannerMachine {autoKill autoDeploy autoRemove status : S}
    (calls : List (ι × ScannerCall S)) (hthreads : (calls.map Prod.fst).Nodup)
    (hready : ∀ p ∈ calls, ∃ o, p.2.operation = some o ∧ c.thread p.1 = .ready o)
    (hm : c.shared.monitor = none)
    (h : (scannerMachine autoKill autoDeploy autoRemove status).exec c.shared.schedule
      (calls.map Prod.snd) = some n') :
    ∃ c', (sharedMachine ι n).Run c c' ∧ c'.shared.schedule = n' ∧
      c'.shared.monitor = none := by
  induction calls generalizing c with
  | nil => exact ⟨c, Machine.RunOf.refl, Option.some.inj h, hm⟩
  | cons p calls ih =>
    rw [List.map_cons, List.nodup_cons] at hthreads
    obtain ⟨⟨o, ho, hi⟩, hready⟩ := List.forall_mem_cons.mp hready
    obtain ⟨n₁, hn₁, hrest⟩ := Option.bind_eq_some_iff.mp h
    obtain ⟨c₁, hrun, hschedule, hmonitor, -, hother⟩ := exists_run_of_perform (n := n) hm hi ho hn₁
    have hready₁ : ∀ q ∈ calls, ∃ o, q.2.operation = some o ∧ c₁.thread q.1 = .ready o := by
      intro q hq
      obtain ⟨o', ho', hj⟩ := hready q hq
      have hne : q.1 ≠ p.1 := by
        intro heq
        exact hthreads.1 (heq ▸ List.mem_map_of_mem hq)
      exact ⟨o', ho', (hother q.1 hne).trans hj⟩
    rw [← hschedule] at hrest
    obtain ⟨c', hrun', h'⟩ := ih hthreads.2 hready₁ hmonitor hrest
    exact ⟨c', hrun.trans hrun', h'⟩

end Calls

end Shabdiz
