import Mathlib.Data.List.Flatten
import Mathlib.Data.List.Nodup
import Mathlib.Data.List.Pairwise
import Shabdiz.Core.AbstractApplicationManager
import Shabdiz.Evaluation.PropertyGroups
import Shabdiz.Evaluation.ResurrectionExperiment
import Shabdiz.Program.Triple
import Shabdiz.Text.Numeral

/-!
# A resurrection experiment

`Experiment.experiment` runs `doExperiment` and leaves properties behind: whether it was successful,
how long it took, and when each phase began and how long that took. `ResurrectionExperiment` has its
phases one after another, and enables and disables the scanners of the network between them;
`ChordResurrectionExperiment` has two more phases. What is read later are the properties: the
analysers take those of the successful experiments only, and ask for the durations.

An experiment calls the network and reads the clock. How long a call takes, and whether it throws,
is decided by an environment, which is a parameter. So is what `setUp` writes. To enable a scanner
is such a call, since the listener of the network then schedules it. The reporter is started before
anything is caught: if that throws, nothing is recorded but when the experiment began. The timer is
that of another library, and a parameter too. The timeout of the test is a thread of its own and
left out.

## Main definitions

* `ExperimentState`, `ExperimentProgram` — what an experiment acts on
* `ExperimentTimer` — a timer, and what is relied on of it
* `doExperiment`, `experiment` — the code
* `phases` — the phases of an experiment, in order
* `InTime` — phases that follow one another within an interval
* `GoesThrough` — the phases that a program goes through, if nothing is thrown
* `ExperimentRecord` — what an experiment leaves behind
* `ExperimentUnstarted` — what is left behind if the reporter cannot be started

## Main results

* `goesThrough_timed` — one phase
* `goesThrough_doExperiment` — the phases of an experiment
* `triple_experiment` — all that an experiment has set when it has ended
* `experiment_records` — what is recorded of every experiment, whatever the network does
-/

namespace Shabdiz

/-! ### The code -/

/-- Which scanners of the network are enabled. -/
structure ScannerSwitches where
  status : Bool
  autoDeploy : Bool
  autoKill : Bool
  ringSize : Bool
deriving DecidableEq

/-- The calls that wait for the network, and the start of the reporter. -/
inductive ExperimentCall where
  | startReporter
  | awaitAnyOfStates (states : List ApplicationState)
  | killPortionOfNetwork
  | assembleRing
  /-- Wait for the latch that the listener of the ring size opens. -/
  | awaitStabilization
deriving DecidableEq

/-- What happens at a call, a change of scanners or a reading of the clock. -/
structure ExperimentAnswer where
  elapsed : ℕ
  /-- What a call throws, or a listener when scanners are changed. -/
  thrown : Option Throwable
deriving DecidableEq

/-- What an experiment acts on. -/
structure ExperimentState where
  /-- What `System.nanoTime` returns. -/
  clock : ℤ
  /-- How many calls, changes of scanners and readings there were. -/
  steps : ℕ
  properties : ExperimentProperties
  scanners : ScannerSwitches
  /-- The calls and the changes of scanners, each with the scanners that were enabled. -/
  trace : List (Option ExperimentCall × ScannerSwitches)

/-- Code of an experiment. -/
abbrev ExperimentProgram := EStateM Throwable ExperimentState

/-- The classes of experiments. -/
inductive ExperimentKind where
  | resurrection
  | chordResurrection
deriving DecidableEq

namespace Experiment

variable (env : ℕ → ExperimentAnswer)

/-- A property is set. -/
def setProperty (key value : List Char) : ExperimentProgram PUnit :=
  modify fun s => { s with properties := Function.update s.properties key (some value) }

/-- Time passes. -/
def pass (s : ExperimentState) : ExperimentState :=
  { s with clock := s.clock + (env s.steps).elapsed, steps := s.steps + 1 }

/-- `System.nanoTime`. -/
def nanoTime : ExperimentProgram ℤ := do
  modify (pass env)
  let s ← get
  pure s.clock

/-- Something that may throw is attempted, with the scanners `f` of those that are enabled. -/
def attempt (c : Option ExperimentCall) (f : ScannerSwitches → ScannerSwitches) :
    ExperimentProgram PUnit := do
  let s ← get
  set { pass env s with scanners := f s.scanners, trace := s.trace ++ [(c, f s.scanners)] }
  match (env s.steps).thrown with
  | none => pure ⟨⟩
  | some e => throw e

/-- Wait for the network, or start the reporter. -/
def call (c : ExperimentCall) : ExperimentProgram PUnit := attempt env (some c) id

/-- Enable and disable scanners. The switches are set first; then the listener of the network is
told, which may throw. -/
def setScanners (f : ScannerSwitches → ScannerSwitches) : ExperimentProgram PUnit :=
  attempt env none f

/-- Whether the status scanner is enabled is set. -/
def setStatusScannerEnabled (enabled : Bool) : ExperimentProgram PUnit :=
  setScanners env fun scanners => { scanners with status := enabled }

/-- Whether the auto-deploy scanner is enabled is set. -/
def setAutoDeployEnabled (enabled : Bool) : ExperimentProgram PUnit :=
  setScanners env fun scanners => { scanners with autoDeploy := enabled }

/-- Whether the auto-kill scanner is enabled is set. -/
def setAutoKillEnabled (enabled : Bool) : ExperimentProgram PUnit :=
  setScanners env fun scanners => { scanners with autoKill := enabled }

end Experiment

/-- A timer of the gauge library: how a time begins and is stopped, and when it began. -/
structure ExperimentTimer (Time : Type) where
  time : ExperimentProgram Time
  stop : Time → ExperimentProgram ℤ
  getStartTimeInNanos : Time → ℤ

/-- **What is relied on** of a timer. -/
structure ExperimentTimer.ReadsClock {Time : Type} (env : ℕ → ExperimentAnswer)
    (timer : ExperimentTimer Time) : Prop where
  /-- When a time begins, the clock is read. -/
  time : ∀ s, ∃ t, timer.time.run s = .ok t (Experiment.pass env s) ∧
    timer.getStartTimeInNanos t = (Experiment.pass env s).clock
  /-- When it is stopped, the clock is read again, and the time since is returned. -/
  stop : ∀ t s, (timer.stop t).run s =
    .ok ((Experiment.pass env s).clock - timer.getStartTimeInNanos t) (Experiment.pass env s)

/-- The two properties of a phase. -/
structure Phase where
  start : List Char
  duration : List Char
deriving DecidableEq

namespace Phase

/-- The wait until every descriptor is authorised. -/
def timeToReachAuth : Phase :=
  ⟨"time_to_reach_auth.start_nanos".toList, "time_to_reach_auth.duration_nanos".toList⟩

/-- The wait until every descriptor is running. -/
def timeToReachRunning : Phase :=
  ⟨"time_to_reach_running.start_nanos".toList, "time_to_reach_running.duration_nanos".toList⟩

/-- The wait until the killed portion is running again. -/
def timeToReachRunningAfterKill : Phase :=
  ⟨"time_to_reach_running_after_kill.start_nanos".toList,
    "time_to_reach_running_after_kill.duration_nanos".toList⟩

/-- The wait until every descriptor is authorised once it has been killed. -/
def timeToReachAuthAfterKill : Phase :=
  ⟨"time_to_reach_auth_from_running.start_nanos".toList,
    "time_to_reach_auth_from_running.duration_nanos".toList⟩

/-- The wait until the ring is stable. -/
def timeToReachStabilizedRing : Phase :=
  ⟨"time_to_reach_stabilized_ring.start_nanos".toList,
    "time_to_reach_stabilized_ring.duration_nanos".toList⟩

/-- The wait until the ring is stable again. -/
def timeToReachStabilizedRingAfterKill : Phase :=
  ⟨"time_to_reach_stabilized_ring_after_kill.start_nanos".toList,
    "time_to_reach_stabilized_ring_after_kill.duration_nanos".toList⟩

end Phase

namespace Experiment

variable (env : ℕ → ExperimentAnswer) {Time : Type} (timer : ExperimentTimer Time)
  (kind : ExperimentKind)

/-- How long it takes until the network is in one of some states. -/
def timeUniformNetworkState (phase : Phase) (states : List ApplicationState) :
    ExperimentProgram PUnit := do
  let time ← timer.time
  call env (.awaitAnyOfStates states)
  let duration ← timer.stop time
  let start := timer.getStartTimeInNanos time
  setProperty phase.duration (integerText duration)
  setProperty phase.start (integerText start)

/-- How long it takes until the ring is stable. -/
def timeRingStabilization (phase : Phase) : ExperimentProgram PUnit := do
  let time ← timer.time
  call env .awaitStabilization
  let duration ← timer.stop time
  let start := timer.getStartTimeInNanos time
  setProperty phase.start (integerText start)
  setProperty phase.duration (integerText duration)

/-- What is done when the network is running. -/
def afterDeploy : ExperimentProgram PUnit :=
  match kind with
  | .resurrection => pure ⟨⟩
  | .chordResurrection => do
    setScanners env fun scanners => { scanners with ringSize := true }
    call env .assembleRing
    timeRingStabilization env timer .timeToReachStabilizedRing

/-- What is done when the network is running again. -/
def afterResurrection : ExperimentProgram PUnit :=
  match kind with
  | .resurrection => pure ⟨⟩
  | .chordResurrection => do
    call env .assembleRing
    timeRingStabilization env timer .timeToReachStabilizedRingAfterKill

/-- What is done if a portion is to be killed. -/
def resurrect : ExperimentProgram PUnit := do
  setAutoDeployEnabled env false
  call env .killPortionOfNetwork
  setAutoDeployEnabled env true
  timeUniformNetworkState env timer .timeToReachRunningAfterKill [.running]
  afterResurrection env timer kind

/-- `ResurrectionExperiment.doExperiment`. -/
def doExperiment (e : ResurrectionExperiment) : ExperimentProgram PUnit := do
  setStatusScannerEnabled env true
  timeUniformNetworkState env timer .timeToReachAuth [.auth]
  setAutoDeployEnabled env true
  timeUniformNetworkState env timer .timeToReachRunning [.running]
  afterDeploy env timer kind
  (if e.killPortion > 0 then resurrect env timer kind else pure ⟨⟩)
  setAutoDeployEnabled env false
  setAutoKillEnabled env true
  timeUniformNetworkState env timer .timeToReachAuthAfterKill [.auth]

/-- `String.valueOf` of what was thrown is a parameter. -/
def experiment (valueOf : Throwable → List Char) (e : ResurrectionExperiment) :
    ExperimentProgram PUnit := do
  let start ← nanoTime env
  setProperty "experiment.start_time_nanos".toList (integerText start)
  call env .startReporter
  tryFinally
    (tryCatch
      (do
        doExperiment env timer kind e
        setProperty "status".toList "SUCCESS".toList)
      fun e => do
        setProperty "status".toList "FAILURE".toList
        setProperty "failure.cause".toList (valueOf e)
        throw e)
    (do
      let stop ← nanoTime env
      setProperty "experiment.duration_nanos".toList (integerText (stop - start)))

/-- The properties that are set before. -/
def setUpKeys : List (List Char) :=
  ["scanner.interval".toList, "scanner.timeout".toList,
    "scanner.scheduler.thread_pool_size".toList, "concurrent_scanner.thread_pool_size".toList,
    "user".toList, "network_size".toList, "manager".toList, "host_provider".toList,
    "working_directory".toList, "report_interval".toList, "kill_portion".toList,
    "kill_portion_random.seed".toList] ++
  match kind with
  | .resurrection => []
  | .chordResurrection =>
    ["chord.join.timeout".toList, "chord.join.retry_interval".toList,
      "chord.join.random_seed".toList]

/-- The state after `setUp`, which disables all scanners. -/
def setUp (clock : ℤ) (valueOf : List Char → List Char) : ExperimentState :=
  ⟨clock, 0, fun key => if (setUpKeys kind).contains key then some (valueOf key) else none,
    ⟨false, false, false, false⟩, []⟩

end Experiment

/-! ### What is recorded -/

/-- A phase that came to its end. -/
structure Measurement where
  phase : Phase
  start : ℤ
  duration : ℤ

/-- The phases of `afterDeploy`. -/
def afterDeployPhases : ExperimentKind → List Phase
  | .resurrection => []
  | .chordResurrection => [.timeToReachStabilizedRing]

/-- The phases of `afterResurrection`. -/
def afterResurrectionPhases : ExperimentKind → List Phase
  | .resurrection => []
  | .chordResurrection => [.timeToReachStabilizedRingAfterKill]

/-- The phases of `resurrect`, if it is called. -/
def resurrectPhases (kind : ExperimentKind) (e : ResurrectionExperiment) : List Phase :=
  if e.killPortion > 0 then .timeToReachRunningAfterKill :: afterResurrectionPhases kind else []

/-- The phases of an experiment, in the order in which they are gone through. -/
def phases (kind : ExperimentKind) (e : ResurrectionExperiment) : List Phase :=
  [.timeToReachAuth, .timeToReachRunning] ++
    (afterDeployPhases kind ++ (resurrectPhases kind e ++ [.timeToReachAuthAfterKill]))

/-- **One after another**, from `a` to `b`. -/
def InTime : ℤ → List Measurement → ℤ → Prop
  | a, [], b => a ≤ b
  | a, m :: done, b => a ≤ m.start ∧ 0 ≤ m.duration ∧ InTime (m.start + m.duration) done b

/-- The scanners that have to be enabled, and those that must not be. -/
def sensible (event : Option ExperimentCall × ScannerSwitches) : Bool :=
  !(event.2.autoDeploy && event.2.autoKill) &&
    match event.1 with
    | none => true
    | some .startReporter => !event.2.status && !event.2.autoDeploy && !event.2.autoKill
    | some .killPortionOfNetwork =>
      event.2.status && !event.2.autoDeploy && !event.2.autoKill
    | some (.awaitAnyOfStates states) =>
      event.2.status && (event.2.autoDeploy == (states == [.running]))
    | some .assembleRing | some .awaitStabilization => event.2.status && event.2.ringSize

/-- Properties that are set one after the other. -/
def writeAll (writes : List (List Char × List Char)) (properties : ExperimentProperties) :
    ExperimentProperties :=
  writes.foldl (fun p write => Function.update p write.1 (some write.2)) properties

/-- What is set of a phase. -/
def Measurement.writes (m : Measurement) : List (List Char × List Char) :=
  [(m.phase.duration, integerText m.duration), (m.phase.start, integerText m.start)]

/-! ### Properties that are set -/

theorem writeAll_append (writes writes' : List (List Char × List Char))
    (properties : ExperimentProperties) :
    writeAll (writes ++ writes') properties = writeAll writes' (writeAll writes properties) :=
  List.foldl_append

theorem writeAll_of_notMem {key : List Char} (writes : List (List Char × List Char))
    (properties : ExperimentProperties) (h : key ∉ writes.map Prod.fst) :
    writeAll writes properties key = properties key := by
  induction writes generalizing properties with
  | nil => rfl
  | cons write writes ih =>
    rw [List.map_cons, List.mem_cons, not_or] at h
    show writeAll writes (Function.update properties write.1 (some write.2)) key = _
    rw [ih _ h.2, Function.update_of_ne h.1]

theorem writeAll_of_mem {write : List Char × List Char} (writes : List (List Char × List Char))
    (properties : ExperimentProperties) (hnodup : (writes.map Prod.fst).Nodup)
    (h : write ∈ writes) : writeAll writes properties write.1 = some write.2 := by
  induction writes generalizing properties with
  | nil => exact absurd h List.not_mem_nil
  | cons first writes ih =>
    rw [List.map_cons, List.nodup_cons] at hnodup
    show writeAll writes (Function.update properties first.1 (some first.2)) write.1 = _
    rcases List.mem_cons.1 h with rfl | h
    · rw [writeAll_of_notMem _ _ hnodup.1, Function.update_self]
    · exact ih _ hnodup.2 h

/-! ### Phases in an interval -/

theorem InTime.le {a b : ℤ} {done : List Measurement} (h : InTime a done b) : a ≤ b := by
  induction done generalizing a with
  | nil => exact h
  | cons m done ih =>
    obtain ⟨hstart, hduration, hrest⟩ := h
    have := ih hrest
    omega

theorem InTime.of_le {a b c : ℤ} {done : List Measurement} (h : InTime b done c) (hab : a ≤ b) :
    InTime a done c := by
  cases done with
  | nil => exact le_trans hab h
  | cons m done => exact ⟨le_trans hab h.1, h.2⟩

theorem InTime.mono {a b c : ℤ} {done : List Measurement} (h : InTime a done b) (hbc : b ≤ c) :
    InTime a done c := by
  induction done generalizing a with
  | nil => exact le_trans h hbc
  | cons m done ih => exact ⟨h.1, h.2.1, ih h.2.2⟩

theorem InTime.concat {a b c : ℤ} {done : List Measurement} {m : Measurement}
    (h : InTime a done b) (hstart : b ≤ m.start) (hduration : 0 ≤ m.duration)
    (hend : m.start + m.duration ≤ c) : InTime a (done ++ [m]) c := by
  induction done generalizing a with
  | nil => exact ⟨le_trans h hstart, hduration, hend⟩
  | cons m' done ih => exact ⟨h.1, h.2.1, ih h.2.2⟩

/-! ### The phases of a program -/

/-- What holds after the phases in `before`. -/
structure Recorded (first : ExperimentState) (before : List Phase) (scanners : ScannerSwitches)
    (done : List Measurement) (s : ExperimentState) : Prop where
  phases : done.map Measurement.phase = before
  inTime : InTime first.clock done s.clock
  properties : s.properties = writeAll (done.flatMap Measurement.writes) first.properties
  scanners : s.scanners = scanners
  trace : ∀ event ∈ s.trace, sensible event

/-- Something was thrown before the end of one of the phases in `new`. -/
def Interrupted (first : ExperimentState) (before new : List Phase) (s : ExperimentState) : Prop :=
  ∃ ended phase rest scanners done, new = ended ++ phase :: rest ∧
    Recorded first (before ++ ended) scanners done s

/-- **The phases in `new`** are gone through, and the scanners are then `scanners'`. -/
def GoesThrough (new : List Phase) (scanners scanners' : ScannerSwitches)
    (x : ExperimentProgram PUnit) : Prop :=
  ∀ first before, Triple (fun s => ∃ done, Recorded first before scanners done s) x
    (fun _ s => ∃ done, Recorded first (before ++ new) scanners' done s)
    (fun _ => Interrupted first before new)

section Programs

variable {env : ℕ → ExperimentAnswer} {Time : Type} {timer : ExperimentTimer Time}
  {first : ExperimentState} {before new new' : List Phase}
  {scanners scanners' scanners'' : ScannerSwitches} {x y : ExperimentProgram PUnit}

theorem Interrupted.append (new' : List Phase) {s : ExperimentState}
    (h : Interrupted first before new s) : Interrupted first before (new ++ new') s := by
  obtain ⟨ended, phase, rest, scanners, done, rfl, h⟩ := h
  exact ⟨ended, phase, rest ++ new', scanners, done, by simp, h⟩

theorem Interrupted.shift {s : ExperimentState} (h : Interrupted first (before ++ new) new' s) :
    Interrupted first before (new ++ new') s := by
  obtain ⟨ended, phase, rest, scanners, done, rfl, h⟩ := h
  exact ⟨new ++ ended, phase, rest, scanners, done, by simp, by rwa [← List.append_assoc]⟩

/-- One program after the other goes through the phases of both. -/
theorem GoesThrough.next (hx : GoesThrough new scanners scanners' x)
    (hy : GoesThrough new' scanners' scanners'' y) :
    GoesThrough (new ++ new') scanners scanners'' (x >>= fun _ => y) := by
  intro first before
  refine Triple.next ((hx first before).consequence (fun _ => id) (fun _ _ => id)
    fun _ _ => Interrupted.append new') ?_
  refine (hy first (before ++ new)).consequence (fun _ => id) (fun _ s h => ?_)
    fun _ _ => Interrupted.shift
  rwa [← List.append_assoc]

theorem GoesThrough.cons {phase : Phase} (hx : GoesThrough [phase] scanners scanners' x)
    (hy : GoesThrough new scanners' scanners'' y) :
    GoesThrough (phase :: new) scanners scanners'' (x >>= fun _ => y) :=
  hx.next hy

theorem goesThrough_nothing : GoesThrough [] scanners scanners (pure ⟨⟩) := by
  intro first before
  refine Triple.pure _ fun s h => ?_
  rwa [List.append_nil]

/-- Time passes while nothing else changes. -/
theorem Recorded.pass {done : List Measurement} {s : ExperimentState}
    (h : Recorded first before scanners done s) :
    Recorded first before scanners done (Experiment.pass env s) :=
  ⟨h.phases, h.inTime.mono (Int.le_add_of_nonneg_right (Int.natCast_nonneg _)), h.properties,
    h.scanners, h.trace⟩

/-- The state after an attempt, whether it throws or not. -/
def Experiment.attempted (env : ℕ → ExperimentAnswer) (c : Option ExperimentCall)
    (f : ScannerSwitches → ScannerSwitches) (s : ExperimentState) : ExperimentState :=
  { Experiment.pass env s with
    scanners := f s.scanners, trace := s.trace ++ [(c, f s.scanners)] }

theorem run_attempt (c : Option ExperimentCall) (f : ScannerSwitches → ScannerSwitches)
    (s : ExperimentState) :
    (Experiment.attempt env c f).run s =
      match (env s.steps).thrown with
      | none => .ok ⟨⟩ (Experiment.attempted env c f s)
      | some e => .error e (Experiment.attempted env c f s) := by
  show (match (env s.steps).thrown with | none => _ | some e => _ : ExperimentProgram PUnit) _ = _
  cases (env s.steps).thrown <;> rfl

/-- It is attempted when it should be, and what it throws is passed on. -/
theorem triple_attempt {c : Option ExperimentCall} {f : ScannerSwitches → ScannerSwitches}
    (h : sensible (c, f scanners)) (a : ℤ) (done : List Measurement) :
    Triple (fun s => Recorded first before scanners done s ∧ a ≤ s.clock)
      (Experiment.attempt env c f)
      (fun _ s => Recorded first before (f scanners) done s ∧ a ≤ s.clock)
      (fun _ s => Recorded first before (f scanners) done s) := by
  intro s ⟨hs, ha⟩
  have hattempted : Recorded first before (f scanners) done
      (Experiment.attempted env c f s) := by
    refine { hs.pass with scanners := congrArg f hs.scanners, trace := fun event hevent => ?_ }
    rcases List.mem_append.1 hevent with hevent | hevent
    · exact hs.trace event hevent
    · rw [List.mem_singleton.1 hevent, hs.scanners]
      exact h
  have hclock : a ≤ (Experiment.pass env s).clock :=
    le_trans ha (Int.le_add_of_nonneg_right (Int.natCast_nonneg _))
  rw [run_attempt]
  cases (env s.steps).thrown with
  | none => exact ⟨hattempted, hclock⟩
  | some e => exact hattempted

/-- A phase that has ended is recorded. -/
theorem Recorded.concat {done : List Measurement} {s : ExperimentState} {phase : Phase}
    {start : ℤ} (h : Recorded first before scanners done s) (hin : InTime first.clock done start)
    (hstart : start ≤ s.clock) :
    Recorded first (before ++ [phase]) scanners (done ++ [⟨phase, start, s.clock - start⟩])
      { s with properties :=
        writeAll (Measurement.writes ⟨phase, start, s.clock - start⟩) s.properties } where
  phases := by
    rw [List.map_append, h.phases]
    rfl
  inTime := hin.concat le_rfl (by dsimp only; omega) (by dsimp only; omega)
  properties := by
    rw [List.flatMap_append, List.flatMap_singleton, writeAll_append, ← h.properties]
  scanners := h.scanners
  trace := h.trace

/-- **One phase**: the clock is read, a call is made, the clock is read again, and what is left to
do sets the two properties. -/
theorem goesThrough_timed (htimer : timer.ReadsClock env) {phase : Phase} {c : ExperimentCall}
    (h : sensible (some c, scanners)) {record : ℤ → ℤ → ExperimentProgram PUnit}
    (hrecord : ∀ start duration s, (record start duration).run s =
      .ok ⟨⟩ { s with
        properties := writeAll (Measurement.writes ⟨phase, start, duration⟩) s.properties }) :
    GoesThrough [phase] scanners scanners (do
      let time ← timer.time
      Experiment.call env c
      let duration ← timer.stop time
      record (timer.getStartTimeInNanos time) duration) := by
  intro first before s ⟨done, hs⟩
  refine Triple.bind (P := fun t => Recorded first before scanners done t)
    (Q := fun time t => Recorded first before scanners done t ∧
      timer.getStartTimeInNanos time = t.clock) ?_ ?_ s hs
  · intro t ht
    obtain ⟨time, hrun, hstart⟩ := htimer.time t
    rw [hrun]
    exact ⟨ht.pass, hstart⟩
  intro time t ⟨ht, hstart⟩
  have hin : InTime first.clock done (timer.getStartTimeInNanos time) := hstart ▸ ht.inTime
  refine Triple.next ((triple_attempt h (timer.getStartTimeInNanos time) done).consequence
    (fun _ => id) (fun _ _ => id) ?_) ?_ t ⟨ht, hstart.le⟩
  · intro e u hu
    exact ⟨[], phase, [], scanners, done, rfl, by rwa [List.append_nil]⟩
  · refine Triple.bind (Q := fun duration u =>
      (Recorded first before scanners done u ∧ timer.getStartTimeInNanos time ≤ u.clock) ∧
        duration = u.clock - timer.getStartTimeInNanos time) ?_ ?_
    · intro u ⟨hu, hle⟩
      rw [htimer.stop]
      exact ⟨⟨hu.pass, le_trans hle (Int.le_add_of_nonneg_right (Int.natCast_nonneg _))⟩, rfl⟩
    · intro duration u ⟨⟨hu, hle⟩, hduration⟩
      subst hduration
      rw [hrecord]
      exact ⟨_, hu.concat hin hle⟩

theorem goesThrough_timeUniformNetworkState (htimer : timer.ReadsClock env) (phase : Phase)
    {states : List ApplicationState} (h : sensible (some (.awaitAnyOfStates states), scanners)) :
    GoesThrough [phase] scanners scanners
      (Experiment.timeUniformNetworkState env timer phase states) :=
  goesThrough_timed htimer h fun _ _ _ => rfl

/-- The two properties are set in the other order. -/
theorem goesThrough_timeRingStabilization (htimer : timer.ReadsClock env) {phase : Phase}
    (hkeys : phase.start ≠ phase.duration) (h : sensible (some .awaitStabilization, scanners)) :
    GoesThrough [phase] scanners scanners (Experiment.timeRingStabilization env timer phase) := by
  have hrecord (start duration : ℤ) (s : ExperimentState) :
      (do
        Experiment.setProperty phase.start (integerText start)
        Experiment.setProperty phase.duration (integerText duration)).run s =
      .ok ⟨⟩ { s with
        properties := writeAll (Measurement.writes ⟨phase, start, duration⟩) s.properties } := by
    have hcomm : Function.update
        (Function.update s.properties phase.start (some (integerText start)))
        phase.duration (some (integerText duration)) =
        writeAll (Measurement.writes ⟨phase, start, duration⟩) s.properties :=
      Function.update_comm hkeys _ _ _
    rw [← hcomm]
    rfl
  exact goesThrough_timed htimer h hrecord

/-- An attempt before the first phase of a program. -/
theorem GoesThrough.after_attempt {c : Option ExperimentCall}
    {f : ScannerSwitches → ScannerSwitches} {phase : Phase} (h : sensible (c, f scanners))
    (hy : GoesThrough (phase :: new) (f scanners) scanners' y) :
    GoesThrough (phase :: new) scanners scanners'
      (Experiment.attempt env c f >>= fun _ => y) := by
  intro first before s ⟨done, hs⟩
  refine Triple.next (Q := fun t => ∃ done, Recorded first before (f scanners) done t)
    ((triple_attempt h first.clock done).consequence (fun _ => id) (fun _ t ht => ⟨done, ht.1⟩) ?_)
    (hy first before) s ⟨hs, hs.inTime.le⟩
  intro e t ht
  exact ⟨[], phase, new, f scanners, done, rfl, by rwa [List.append_nil]⟩

theorem GoesThrough.after_call {c : ExperimentCall} {phase : Phase}
    (h : sensible (some c, scanners)) (hy : GoesThrough (phase :: new) scanners scanners' y) :
    GoesThrough (phase :: new) scanners scanners' (Experiment.call env c >>= fun _ => y) :=
  GoesThrough.after_attempt h hy

theorem GoesThrough.after_setScanners {f : ScannerSwitches → ScannerSwitches} {phase : Phase}
    (h : sensible (none, f scanners))
    (hy : GoesThrough (phase :: new) (f scanners) scanners' y) :
    GoesThrough (phase :: new) scanners scanners' (Experiment.setScanners env f >>= fun _ => y) :=
  GoesThrough.after_attempt h hy

end Programs

/-! ### The phases of an experiment -/

namespace ExperimentKind

/-- The scanners that are enabled when the network is running. -/
def scannersAfterDeploy : ExperimentKind → ScannerSwitches
  | .resurrection => ⟨true, true, false, false⟩
  | .chordResurrection => ⟨true, true, false, true⟩

/-- The scanners that are enabled at the end. -/
def scannersAtEnd (kind : ExperimentKind) : ScannerSwitches :=
  { kind.scannersAfterDeploy with autoDeploy := false, autoKill := true }

end ExperimentKind

section Experiments

variable {env : ℕ → ExperimentAnswer} {Time : Type} {timer : ExperimentTimer Time}
  (htimer : timer.ReadsClock env) (kind : ExperimentKind) (e : ResurrectionExperiment)

include htimer

theorem goesThrough_afterDeploy :
    GoesThrough (afterDeployPhases kind) ⟨true, true, false, false⟩ kind.scannersAfterDeploy
      (Experiment.afterDeploy env timer kind) := by
  cases kind with
  | resurrection => exact goesThrough_nothing
  | chordResurrection =>
    refine GoesThrough.after_setScanners (by decide) ?_
    refine GoesThrough.after_call (by decide) ?_
    exact goesThrough_timeRingStabilization htimer (by decide) (by decide)

theorem goesThrough_afterResurrection :
    GoesThrough (afterResurrectionPhases kind) kind.scannersAfterDeploy kind.scannersAfterDeploy
      (Experiment.afterResurrection env timer kind) := by
  cases kind with
  | resurrection => exact goesThrough_nothing
  | chordResurrection =>
    refine GoesThrough.after_call (by decide) ?_
    exact goesThrough_timeRingStabilization htimer (by decide) (by decide)

/-- The network is killed from while nothing is deployed. -/
theorem goesThrough_resurrect :
    GoesThrough (.timeToReachRunningAfterKill :: afterResurrectionPhases kind)
      kind.scannersAfterDeploy kind.scannersAfterDeploy (Experiment.resurrect env timer kind) := by
  have hdeploy : ({ kind.scannersAfterDeploy with autoDeploy := true } : ScannerSwitches) =
      kind.scannersAfterDeploy := by
    cases kind <;> rfl
  refine GoesThrough.after_setScanners (by cases kind <;> decide) ?_
  refine GoesThrough.after_call (by cases kind <;> decide) ?_
  refine GoesThrough.after_setScanners (by cases kind <;> decide) ?_
  dsimp only
  rw [hdeploy]
  exact GoesThrough.cons
    (goesThrough_timeUniformNetworkState htimer _ (by cases kind <;> decide))
    (goesThrough_afterResurrection htimer kind)

/-- **The experiment** goes through its phases. -/
theorem goesThrough_doExperiment :
    GoesThrough (phases kind e) ⟨false, false, false, false⟩ kind.scannersAtEnd
      (Experiment.doExperiment env timer kind e) := by
  have hresurrect : GoesThrough (resurrectPhases kind e) kind.scannersAfterDeploy
      kind.scannersAfterDeploy
      (if e.killPortion > 0 then Experiment.resurrect env timer kind else pure ⟨⟩) := by
    rw [resurrectPhases]
    split
    · exact goesThrough_resurrect htimer kind
    · exact goesThrough_nothing
  show GoesThrough (.timeToReachAuth :: .timeToReachRunning ::
    (afterDeployPhases kind ++ (resurrectPhases kind e ++ [.timeToReachAuthAfterKill]))) _ _ _
  refine GoesThrough.after_setScanners (by decide) ?_
  refine GoesThrough.cons (goesThrough_timeUniformNetworkState htimer _ (by decide)) ?_
  refine GoesThrough.after_setScanners (by decide) ?_
  refine GoesThrough.cons (goesThrough_timeUniformNetworkState htimer _ (by decide)) ?_
  refine GoesThrough.next (goesThrough_afterDeploy htimer kind) ?_
  refine GoesThrough.next hresurrect ?_
  refine GoesThrough.after_setScanners (by cases kind <;> decide) ?_
  refine GoesThrough.after_setScanners (by cases kind <;> decide) ?_
  exact goesThrough_timeUniformNetworkState htimer _ (by cases kind <;> decide)

end Experiments

/-! ### The record of an experiment -/

/-- What is set when `doExperiment` has returned or has thrown. -/
def outcomeWrites (causeText : Throwable → List Char) :
    Option Throwable → List (List Char × List Char)
  | none => [("status".toList, "SUCCESS".toList)]
  | some e => [("status".toList, "FAILURE".toList), ("failure.cause".toList, causeText e)]

/-- All that `experiment` sets. -/
def experimentWrites (causeText : Throwable → List Char) (thrown : Option Throwable)
    (start stop : ℤ) (done : List Measurement) : List (List Char × List Char) :=
  ("experiment.start_time_nanos".toList, integerText start) ::
    (done.flatMap Measurement.writes ++ (outcomeWrites causeText thrown ++
      [("experiment.duration_nanos".toList, integerText (stop - start))]))

section Record

variable {env : ℕ → ExperimentAnswer} {Time : Type} {timer : ExperimentTimer Time}
  (htimer : timer.ReadsClock env) (kind : ExperimentKind) (e : ResurrectionExperiment)
  (causeText : Throwable → List Char)

/-- What holds when `doExperiment` has ended and the status is set. -/
def HasOutcome (first : ExperimentState) (thrown : Option Throwable) (s : ExperimentState) : Prop :=
  ∃ before scanners done t, before <+: phases kind e ∧ (thrown = none ↔ before = phases kind e) ∧
    Recorded first before scanners done t ∧
    s = { t with properties := writeAll (outcomeWrites causeText thrown) t.properties }

include htimer in
theorem triple_outcome (first : ExperimentState)
    (hscanners : first.scanners = ⟨false, false, false, false⟩)
    (htrace : ∀ event ∈ first.trace, sensible event) :
    Triple (fun s => s = first)
      (tryCatch
        (do
          Experiment.doExperiment env timer kind e
          Experiment.setProperty "status".toList "SUCCESS".toList)
        fun e => do
          Experiment.setProperty "status".toList "FAILURE".toList
          Experiment.setProperty "failure.cause".toList (causeText e)
          throw e)
      (fun _ => HasOutcome kind e causeText first none)
      (fun t => HasOutcome kind e causeText first (some t)) := by
  refine Triple.tryCatch (?_ : Triple _ _ _ fun _ => Interrupted first [] (phases kind e)) ?_
  · refine Triple.next (Q := fun s => ∃ done,
      Recorded first (phases kind e) kind.scannersAtEnd done s) ?_ ?_
    · refine ((goesThrough_doExperiment htimer kind e) first []).consequence ?_ (fun _ _ => id)
        fun _ _ => id
      rintro s rfl
      exact ⟨[], rfl, le_rfl, rfl, hscanners, htrace⟩
    · refine Triple.modify _ fun s ⟨done, hs⟩ => ?_
      exact ⟨_, _, done, s, List.prefix_rfl, by simp, hs, rfl⟩
  · rintro t s ⟨ended, phase, rest, scanners, done, hphases, hs⟩
    refine ⟨ended, scanners, done, s, ?_, ?_, hs, rfl⟩
    · rw [hphases]
      exact List.prefix_append _ _
    · rw [hphases]
      simp

/-- What `startReporter` throws. It is attempted after one reading of the clock. -/
def Experiment.startReporterThrows (env : ℕ → ExperimentAnswer) (s : ExperimentState) :
    Option Throwable :=
  (env (s.steps + 1)).thrown

/-- The state in which `startReporter` has returned or has thrown. -/
def Experiment.reporting (env : ℕ → ExperimentAnswer) (s : ExperimentState) : ExperimentState :=
  Experiment.attempted env (some .startReporter) id
    { Experiment.pass env s with
      properties := Function.update s.properties "experiment.start_time_nanos".toList
        (some (integerText (Experiment.pass env s).clock)) }

/-- What holds when `experiment` has ended, if the reporter was started. -/
def Leaves (s₀ : ExperimentState) (thrown : Option Throwable) (s : ExperimentState) : Prop :=
  ∃ start stop done, (done.map Measurement.phase <+: phases kind e ∧
      (thrown = none ↔ done.map Measurement.phase = phases kind e)) ∧
    (s₀.clock ≤ start ∧ InTime start done stop) ∧
    s.properties = writeAll (experimentWrites causeText thrown start stop done) s₀.properties ∧
    ∀ event ∈ s.trace, sensible event

/-- The finalizer sets the duration. -/
theorem triple_finalizer (s₀ : ExperimentState) (thrown : Option Throwable)
    {E : Throwable → ExperimentState → Prop} :
    Triple (HasOutcome kind e causeText (Experiment.reporting env s₀) thrown)
      (do
        let stop ← Experiment.nanoTime env
        Experiment.setProperty "experiment.duration_nanos".toList
          (integerText (stop - (Experiment.pass env s₀).clock)))
      (fun _ => Leaves kind e causeText s₀ thrown) E := by
  rintro s ⟨before, scanners, done, t, hprefix, hall, ht, rfl⟩
  have hle : s₀.clock ≤ (Experiment.pass env s₀).clock :=
    Int.le_add_of_nonneg_right (Int.natCast_nonneg _)
  have hle' : (Experiment.pass env s₀).clock ≤ (Experiment.reporting env s₀).clock :=
    Int.le_add_of_nonneg_right (Int.natCast_nonneg _)
  refine ⟨_, (Experiment.pass env t).clock, done, ⟨?_, ?_⟩, ⟨hle, ht.pass.inTime.of_le hle'⟩, ?_,
    ht.trace⟩
  · rwa [ht.phases]
  · rwa [ht.phases]
  · show Function.update (writeAll (outcomeWrites causeText thrown) t.properties) _ _ = _
    rw [ht.properties]
    show _ = writeAll (_ ++ _) (Function.update s₀.properties _ _)
    rw [writeAll_append, writeAll_append]
    rfl

/-- What `experiment` does up to the `try`. -/
theorem run_experiment (s₀ : ExperimentState) :
    (Experiment.experiment env timer kind causeText e).run s₀ =
      match Experiment.startReporterThrows env s₀ with
      | some t => .error t (Experiment.reporting env s₀)
      | none => (tryFinally
          (tryCatch
            (do
              Experiment.doExperiment env timer kind e
              Experiment.setProperty "status".toList "SUCCESS".toList)
            fun e => do
              Experiment.setProperty "status".toList "FAILURE".toList
              Experiment.setProperty "failure.cause".toList (causeText e)
              throw e)
          (do
            let stop ← Experiment.nanoTime env
            Experiment.setProperty "experiment.duration_nanos".toList
              (integerText (stop - (Experiment.pass env s₀).clock))) :
              ExperimentProgram PUnit).run (Experiment.reporting env s₀) := by
  show ((Experiment.attempt env (some .startReporter) id >>= fun _ => _) :
    ExperimentProgram PUnit).run
      { Experiment.pass env s₀ with
        properties := Function.update s₀.properties "experiment.start_time_nanos".toList
          (some (integerText (Experiment.pass env s₀).clock)) } = _
  have hsteps : (Experiment.pass env s₀).steps = s₀.steps + 1 := rfl
  rw [EStateM.run_bind, run_attempt, Experiment.startReporterThrows, hsteps]
  cases (env (s₀.steps + 1)).thrown <;> rfl

include htimer in
/-- **What `experiment` does** if the reporter is started, as all that it has set at the end. -/
theorem leaves_experiment (s₀ : ExperimentState)
    (hscanners : s₀.scanners = ⟨false, false, false, false⟩)
    (htrace : ∀ event ∈ s₀.trace, sensible event)
    (hreporter : Experiment.startReporterThrows env s₀ = none) :
    Leaves kind e causeText s₀
      (thrownBy ((Experiment.experiment env timer kind causeText e).run s₀))
      (endState ((Experiment.experiment env timer kind causeText e).run s₀)) := by
  have htrace' : ∀ event ∈ (Experiment.reporting env s₀).trace, sensible event := by
    intro event hevent
    rcases List.mem_append.1 hevent with hevent | hevent
    · exact htrace event hevent
    · rw [List.mem_singleton.1 hevent]
      show sensible (some .startReporter, s₀.scanners) = true
      rw [hscanners]
      decide
  have htriple := Triple.tryFinally
    (triple_outcome htimer kind e causeText (Experiment.reporting env s₀) hscanners htrace')
    (fun _ => triple_finalizer kind e causeText s₀ none)
    (fun t => triple_finalizer kind e causeText s₀ (some t))
  rw [run_experiment, hreporter]
  exact htriple.ends rfl

end Record

/-! ### Reading the record -/

/-- All phases that there are. -/
def allPhases : List Phase :=
  [.timeToReachAuth, .timeToReachRunning, .timeToReachStabilizedRing, .timeToReachRunningAfterKill,
    .timeToReachStabilizedRingAfterKill, .timeToReachAuthAfterKill]

/-- The properties of a phase. -/
def Phase.keys (phase : Phase) : List (List Char) := [phase.duration, phase.start]

/-- All properties that `experiment` may set. -/
def experimentKeys : List (List Char) :=
  "experiment.start_time_nanos".toList :: (allPhases.flatMap Phase.keys ++
    (["status".toList, "failure.cause".toList] ++ ["experiment.duration_nanos".toList]))

/-- All properties have different names. -/
theorem setUpKeys_experimentKeys_nodup :
    (Experiment.setUpKeys .chordResurrection ++ experimentKeys).Nodup := by decide +kernel

theorem experimentKeys_nodup : experimentKeys.Nodup :=
  (List.nodup_append.1 setUpKeys_experimentKeys_nodup).2.1

theorem setUpKeys_disjoint (kind : ExperimentKind) :
    ∀ key ∈ Experiment.setUpKeys kind, key ∉ experimentKeys := by
  intro key hkey hmem
  have hsetUp : key ∈ Experiment.setUpKeys .chordResurrection := by
    cases kind with
    | resurrection =>
      exact List.mem_append_left _ ((List.mem_append.1 hkey).resolve_right List.not_mem_nil)
    | chordResurrection => exact hkey
  exact (List.nodup_append.1 setUpKeys_experimentKeys_nodup).2.2 key hsetUp key hmem rfl

theorem phases_sublist (kind : ExperimentKind) (e : ResurrectionExperiment) :
    (phases kind e).Sublist allPhases := by
  have hdeploy : (afterDeployPhases kind).Sublist [.timeToReachStabilizedRing] := by
    cases kind with
    | resurrection => exact List.nil_sublist _
    | chordResurrection => exact List.Sublist.refl _
  have hresurrection :
      (afterResurrectionPhases kind).Sublist [.timeToReachStabilizedRingAfterKill] := by
    cases kind with
    | resurrection => exact List.nil_sublist _
    | chordResurrection => exact List.Sublist.refl _
  have hresurrect : (resurrectPhases kind e).Sublist
      [.timeToReachRunningAfterKill, .timeToReachStabilizedRingAfterKill] := by
    rw [resurrectPhases]
    split
    · exact hresurrection.cons_cons _
    · exact List.nil_sublist _
  exact (List.Sublist.refl [.timeToReachAuth, .timeToReachRunning]).append
    (hdeploy.append (hresurrect.append (List.Sublist.refl _)))

theorem keys_outcomeWrites (causeText : Throwable → List Char) (thrown : Option Throwable) :
    ((outcomeWrites causeText thrown).map Prod.fst).Sublist
      ["status".toList, "failure.cause".toList] := by
  cases thrown with
  | none => exact (List.nil_sublist _).cons_cons _
  | some e => exact List.Sublist.refl _

/-- The properties that are set are some of those that there are, in order. -/
theorem keys_experimentWrites {kind : ExperimentKind} {e : ResurrectionExperiment}
    (causeText : Throwable → List Char) (thrown : Option Throwable) (start stop : ℤ)
    {done : List Measurement} (h : done.map Measurement.phase <+: phases kind e) :
    ((experimentWrites causeText thrown start stop done).map Prod.fst).Sublist experimentKeys := by
  have hdone : (done.flatMap Measurement.writes).map Prod.fst =
      (done.map Measurement.phase).flatMap Phase.keys := by
    rw [List.map_flatMap, List.flatMap_map]
    rfl
  rw [experimentWrites, List.map_cons, List.map_append, List.map_append, hdone]
  refine List.Sublist.cons_cons _ (List.Sublist.append ?_
    ((keys_outcomeWrites causeText thrown).append (List.Sublist.refl _)))
  exact (h.sublist.trans (phases_sublist kind e)).flatMap _

/-- **The record of an experiment**, of what `setUp` wrote and of what was thrown. -/
structure ExperimentRecord (kind : ExperimentKind) (e : ResurrectionExperiment)
    (valueOf : List Char → List Char) (causeText : Throwable → List Char)
    (thrown : Option Throwable) (start stop : ℤ) (done : List Measurement)
    (properties : ExperimentProperties) : Prop where
  /-- The first phases came to their end, and all of them if nothing was thrown. -/
  phases : done.map Measurement.phase <+: phases kind e ∧
    (thrown = none ↔ done.map Measurement.phase = Shabdiz.phases kind e)
  /-- They followed one another, within the experiment. -/
  inTime : InTime start done stop
  measured : ∀ m ∈ done, properties m.phase.start = some (integerText m.start) ∧
    properties m.phase.duration = some (integerText m.duration)
  notMeasured : ∀ phase ∈ allPhases, phase ∉ done.map Measurement.phase →
    properties phase.start = none ∧ properties phase.duration = none
  successful : isSuccessful properties = true ↔ thrown = none
  cause : properties "failure.cause".toList = thrown.map causeText
  startTime : properties "experiment.start_time_nanos".toList = some (integerText start)
  duration : properties "experiment.duration_nanos".toList = some (integerText (stop - start))
  kept : ∀ key ∈ Experiment.setUpKeys kind, properties key = some (valueOf key)

/-- A property of one phase is a property of no other, and none of those of the experiment. -/
theorem mem_keys_unique {phase : Phase} (hphase : phase ∈ allPhases) {key : List Char}
    (hkey : key ∈ phase.keys) : (∀ phase' ∈ allPhases, key ∈ phase'.keys → phase' = phase) ∧
      key ∉ "experiment.start_time_nanos".toList ::
        (["status".toList, "failure.cause".toList] ++ ["experiment.duration_nanos".toList]) := by
  have hflatMap : key ∈ allPhases.flatMap Phase.keys := List.mem_flatMap.2 ⟨phase, hphase, hkey⟩
  obtain ⟨hstart, hrest⟩ := List.nodup_cons.1 experimentKeys_nodup
  obtain ⟨hphases, -, hother⟩ := List.nodup_append.1 hrest
  constructor
  · intro phase' hphase' hkey'
    by_contra hne
    have hsymm : Std.Symm (Function.onFun List.Disjoint Phase.keys) := ⟨fun _ _ h => h.symm⟩
    exact (List.nodup_flatMap.1 hphases).2.forall hphase' hphase hne hkey' hkey
  · intro hmem
    rcases List.mem_cons.1 hmem with rfl | hmem
    · exact hstart (List.mem_append_left _ hflatMap)
    · exact hother key hflatMap key hmem rfl

theorem mem_experimentKeys {phase : Phase} (h : phase ∈ allPhases) {key : List Char}
    (hkey : key ∈ phase.keys) : key ∈ experimentKeys :=
  List.mem_cons_of_mem _ (List.mem_append_left _ (List.mem_flatMap.2 ⟨phase, h, hkey⟩))

section Reading

variable {kind : ExperimentKind} {e : ResurrectionExperiment} {causeText : Throwable → List Char}
  {thrown : Option Throwable} {start stop : ℤ} {done : List Measurement}

/-- The properties of the phases that came to their end. -/
theorem exists_of_mem_measured (h : done.map Measurement.phase <+: phases kind e) {key : List Char}
    (hkey : key ∈ (done.flatMap Measurement.writes).map Prod.fst) :
    ∃ phase ∈ done.map Measurement.phase, phase ∈ allPhases ∧ key ∈ phase.keys := by
  obtain ⟨write, hwrite, rfl⟩ := List.mem_map.1 hkey
  obtain ⟨m, hm, hwrite⟩ := List.mem_flatMap.1 hwrite
  have hphase : m.phase ∈ done.map Measurement.phase := List.mem_map_of_mem hm
  exact ⟨m.phase, hphase, (phases_sublist kind e).subset (h.subset hphase),
    List.mem_map_of_mem hwrite⟩

/-- A phase that did not come to its end has no properties. -/
theorem notMem_experimentWrites (h : done.map Measurement.phase <+: phases kind e) {phase : Phase}
    (hphase : phase ∈ allPhases) (hnot : phase ∉ done.map Measurement.phase) {key : List Char}
    (hkey : key ∈ phase.keys) :
    key ∉ (experimentWrites causeText thrown start stop done).map Prod.fst := by
  obtain ⟨hunique, hother⟩ := mem_keys_unique hphase hkey
  rw [experimentWrites, List.map_cons, List.map_append, List.map_append]
  intro hmem
  rcases List.mem_cons.1 hmem with rfl | hmem
  · exact hother List.mem_cons_self
  rcases List.mem_append.1 hmem with hmem | hmem
  · obtain ⟨phase', hdone, hphase', hkey'⟩ := exists_of_mem_measured h hmem
    rw [hunique phase' hphase' hkey'] at hdone
    exact hnot hdone
  · refine hother (List.mem_cons_of_mem _ ?_)
    exact ((keys_outcomeWrites causeText thrown).append (List.Sublist.refl _)).subset hmem

/-- There is no cause if nothing was thrown. -/
theorem cause_notMem (h : done.map Measurement.phase <+: phases kind e) :
    "failure.cause".toList ∉ (experimentWrites causeText none start stop done).map Prod.fst := by
  rw [experimentWrites, List.map_cons, List.map_append, List.map_append]
  intro hmem
  rcases List.mem_cons.1 hmem with hmem | hmem
  · have hne : "failure.cause".toList ≠ "experiment.start_time_nanos".toList := by decide
    exact hne hmem
  rcases List.mem_append.1 hmem with hmem | hmem
  · obtain ⟨phase, -, hphase, hkey⟩ := exists_of_mem_measured h hmem
    exact (mem_keys_unique hphase hkey).2
      (List.mem_cons_of_mem _ (List.mem_cons_of_mem _ List.mem_cons_self))
  · exact absurd hmem (by show _ ∉ ["status".toList, "experiment.duration_nanos".toList]; decide)

/-- What was set is read, and so is what `setUp` wrote. -/
theorem experimentRecord (valueOf : List Char → List Char) (clock : ℤ)
    (h : done.map Measurement.phase <+: phases kind e)
    (hall : thrown = none ↔ done.map Measurement.phase = phases kind e)
    (hin : InTime start done stop) :
    ExperimentRecord kind e valueOf causeText thrown start stop done
      (writeAll (experimentWrites causeText thrown start stop done)
        (Experiment.setUp kind clock valueOf).properties) := by
  have hsublist := keys_experimentWrites causeText thrown start stop h
  have hread : ∀ write ∈ experimentWrites causeText thrown start stop done,
      writeAll (experimentWrites causeText thrown start stop done)
        (Experiment.setUp kind clock valueOf).properties write.1 = some write.2 := fun write =>
    writeAll_of_mem _ _ (experimentKeys_nodup.sublist hsublist)
  have hunset : ∀ key ∈ experimentKeys,
      key ∉ (experimentWrites causeText thrown start stop done).map Prod.fst →
      writeAll (experimentWrites causeText thrown start stop done)
        (Experiment.setUp kind clock valueOf).properties key = none := by
    intro key hkey hnot
    rw [writeAll_of_notMem _ _ hnot]
    exact if_neg fun hsetUp =>
      setUpKeys_disjoint kind key (List.contains_iff_mem.mp hsetUp) hkey
  have houtcome : ∀ write ∈ outcomeWrites causeText thrown,
      writeAll (experimentWrites causeText thrown start stop done)
        (Experiment.setUp kind clock valueOf).properties write.1 = some write.2 :=
    fun write hwrite => hread write
      (List.mem_cons_of_mem _ (List.mem_append_right _ (List.mem_append_left _ hwrite)))
  refine ⟨⟨h, hall⟩, hin, ?_, ?_, ?_, ?_, ?_, ?_, ?_⟩
  · intro m hm
    have hwrites : ∀ write ∈ m.writes, write ∈ experimentWrites causeText thrown start stop done :=
      fun write hwrite => List.mem_cons_of_mem _
        (List.mem_append_left _ (List.mem_flatMap.2 ⟨m, hm, hwrite⟩))
    exact ⟨hread _ (hwrites (m.phase.start, _) (List.mem_cons_of_mem _ List.mem_cons_self)),
      hread _ (hwrites (m.phase.duration, _) List.mem_cons_self)⟩
  · intro phase hphase hnot
    have hnone : ∀ key ∈ phase.keys, writeAll _ _ key = none := fun key hkey =>
      hunset key (mem_experimentKeys hphase hkey) (notMem_experimentWrites h hphase hnot hkey)
    exact ⟨hnone _ (List.mem_cons_of_mem _ List.mem_cons_self), hnone _ List.mem_cons_self⟩
  · cases thrown with
    | none =>
      rw [isSuccessful, houtcome _ List.mem_cons_self]
      exact iff_of_true (decide_eq_true rfl) rfl
    | some t =>
      rw [isSuccessful, houtcome _ List.mem_cons_self]
      exact iff_of_false (by decide) nofun
  · cases thrown with
    | none => exact hunset _ (by decide) (cause_notMem h)
    | some t => exact houtcome _ (List.mem_cons_of_mem _ List.mem_cons_self)
  · exact hread _ List.mem_cons_self
  · exact hread _ (List.mem_cons_of_mem _
      (List.mem_append_right _ (List.mem_append_right _ List.mem_cons_self)))
  · intro key hkey
    rw [writeAll_of_notMem _ _ fun hmem => setUpKeys_disjoint kind key hkey (hsublist.subset hmem)]
    exact if_pos (List.contains_iff_mem.mpr hkey)

end Reading

/-- **What is left behind if the reporter cannot be started**: when the experiment began, and what
`setUp` wrote. -/
structure ExperimentUnstarted (kind : ExperimentKind) (valueOf : List Char → List Char) (start : ℤ)
    (properties : ExperimentProperties) : Prop where
  startTime : properties "experiment.start_time_nanos".toList = some (integerText start)
  rest : ∀ key ∈ experimentKeys, key ≠ "experiment.start_time_nanos".toList →
    properties key = none
  kept : ∀ key ∈ Experiment.setUpKeys kind, properties key = some (valueOf key)

theorem experimentUnstarted (env : ℕ → ExperimentAnswer) (kind : ExperimentKind) (clock : ℤ)
    (valueOf : List Char → List Char) :
    ExperimentUnstarted kind valueOf
      (Experiment.pass env (Experiment.setUp kind clock valueOf)).clock
      (Experiment.reporting env (Experiment.setUp kind clock valueOf)).properties := by
  have hset : (Experiment.reporting env (Experiment.setUp kind clock valueOf)).properties =
      Function.update (Experiment.setUp kind clock valueOf).properties
        "experiment.start_time_nanos".toList
        (some (integerText (Experiment.pass env (Experiment.setUp kind clock valueOf)).clock)) :=
    rfl
  rw [hset]
  refine ⟨Function.update_self .., fun key hkey hne => ?_, fun key hkey => ?_⟩
  · rw [Function.update_of_ne hne]
    exact if_neg fun hsetUp =>
      setUpKeys_disjoint kind key (List.contains_iff_mem.mp hsetUp) hkey
  · have hne : key ≠ "experiment.start_time_nanos".toList := by
      rintro rfl
      exact setUpKeys_disjoint kind _ hkey List.mem_cons_self
    rw [Function.update_of_ne hne]
    exact if_pos (List.contains_iff_mem.mpr hkey)

/-- **Every experiment is recorded**, whatever the network does, if the reporter is started; and
only its beginning if it is not. -/
theorem experiment_records {env : ℕ → ExperimentAnswer} {Time : Type} {timer : ExperimentTimer Time}
    (htimer : timer.ReadsClock env) (kind : ExperimentKind) (e : ResurrectionExperiment) (clock : ℤ)
    (valueOf : List Char → List Char) (causeText : Throwable → List Char) :
    let setUp := Experiment.setUp kind clock valueOf
    let result := (Experiment.experiment env timer kind causeText e).run setUp
    ∃ start, clock ≤ start ∧ (∀ event ∈ (endState result).trace, sensible event) ∧
      match Experiment.startReporterThrows env setUp with
      | some thrown => thrownBy result = some thrown ∧
          ExperimentUnstarted kind valueOf start (endState result).properties
      | none => ∃ stop done, ExperimentRecord kind e valueOf causeText (thrownBy result) start stop
          done (endState result).properties := by
  intro setUp result
  cases hreporter : Experiment.startReporterThrows env setUp with
  | some thrown =>
    have hrun : result = .error thrown (Experiment.reporting env setUp) := by
      show (Experiment.experiment env timer kind causeText e).run setUp = _
      rw [run_experiment, hreporter]
    rw [hrun]
    refine ⟨(Experiment.pass env setUp).clock,
      Int.le_add_of_nonneg_right (Int.natCast_nonneg _), fun event hevent => ?_, rfl,
      experimentUnstarted env kind clock valueOf⟩
    rw [List.mem_singleton.1 hevent]
    rfl
  | none =>
    obtain ⟨start, stop, done, ⟨h, hall⟩, ⟨hclock, hin⟩, hproperties, htrace⟩ :=
      leaves_experiment htimer kind e causeText setUp rfl (fun _ => nofun) hreporter
    refine ⟨start, hclock, htrace, stop, done, ?_⟩
    rw [hproperties]
    exact experimentRecord valueOf clock h hall hin

/-- A timer that reads the clock itself. -/
def ExperimentTimer.nano (env : ℕ → ExperimentAnswer) : ExperimentTimer ℤ where
  time := Experiment.nanoTime env
  stop start := do
    let stop ← Experiment.nanoTime env
    pure (stop - start)
  getStartTimeInNanos := id

theorem ExperimentTimer.readsClock_nano (env : ℕ → ExperimentAnswer) :
    (ExperimentTimer.nano env).ReadsClock env :=
  ⟨fun _ => ⟨_, rfl, rfl⟩, fun _ _ => rfl⟩

/-- A network that throws nothing, and takes a nanosecond for each answer. -/
def quickNetwork : ℕ → ExperimentAnswer := fun _ => ⟨1, none⟩

theorem validKillPortion_fifty : 0 ≤ (50 : Int32).toInt ∧ (50 : Int32).toInt ≤ 100 := by decide

/-- Two instances, of which one is killed. -/
def killOneOfTwo : ResurrectionExperiment := ⟨2, 50, validKillPortion_fifty⟩

/-- With it, all phases of an experiment are recorded. -/
theorem experiment_records_quickNetwork :
    let result := (Experiment.experiment quickNetwork (.nano quickNetwork) .chordResurrection
      (fun _ => []) killOneOfTwo).run (Experiment.setUp .chordResurrection 0 id)
    ∃ start stop done, ExperimentRecord .chordResurrection killOneOfTwo id (fun _ => []) none start
      stop done (endState result).properties := by
  obtain ⟨start, -, -, stop, done, hrecord⟩ := experiment_records
    (ExperimentTimer.readsClock_nano quickNetwork) .chordResurrection killOneOfTwo 0 id fun _ => []
  exact ⟨start, stop, done, hrecord⟩

end Shabdiz
