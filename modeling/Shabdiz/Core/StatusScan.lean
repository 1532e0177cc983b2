import Shabdiz.Concurrency.History
import Shabdiz.Core.Writes

/-!
# What a status scan publishes

A status scan reads the state, probes the application, which may take minutes, and then compares
and sets. The comparison is by value, so it notices the writes in between unless the last of them
wrote the value that the scan has read.

## Main definitions

* `ReadAt`, `ProbedSince` — how far a scan has come, in the log
* `Published` — a write of a scan, with the read and the probe that it rests on

## Main results

* `statusScan_published` — a scan writes only if nobody else has written since it read, or the last
  write restored the value read
* `exists_stale_probe` — and then what it writes was probed before that write
-/

namespace Shabdiz

open ApplicationDescriptor

variable {ι ρ η : Type} {i : ι} {old new : ApplicationState} {log : List (Event ι ρ)}

/-- Call `i` has read `old`; `since` is what has happened from there on. -/
def ReadAt (i : ι) (old : ApplicationState) (log since : List (Event ι ρ)) : Prop :=
  ∃ before, log = before ++ .read i old :: since ∧ stateAfter .unknown before = old

/-- Call `i` has read `old` and has probed `new` since. -/
def ProbedSince (i : ι) (old new : ApplicationState) (log since : List (Event ι ρ)) : Prop :=
  ReadAt i old log since ∧ ∃ called, .probed i called new ∈ since

/-- A history in which call `i` read `old`, later probed `new`, and later replaced `old` by `new`,
when nobody had written in between or the last to write had written `old` again. -/
def Published (i : ι) (old new : ApplicationState) (log : List (Event ι ρ)) : Prop :=
  ∃ before since after called,
    log = before ++ .read i old :: (since ++ .wrote i old new :: after) ∧
    .probed i called new ∈ since ∧
    (written since = [] ∨ (written since).getLast? = some old)

theorem ReadAt.append {since : List (Event ι ρ)} (h : ReadAt i old log since)
    (l : List (Event ι ρ)) : ReadAt i old (log ++ l) (since ++ l) := by
  obtain ⟨before, rfl, hb⟩ := h
  exact ⟨before, by simp, hb⟩

/-- The state at the end of what has happened since the read. -/
theorem ReadAt.stateAfter {since : List (Event ι ρ)} (h : ReadAt i old log since) :
    stateAfter .unknown log = Shabdiz.stateAfter old since := by
  obtain ⟨before, rfl, rfl⟩ := h
  rw [stateAfter_append]
  rfl

theorem ProbedSince.append {since : List (Event ι ρ)} (h : ProbedSince i old new log since)
    (l : List (Event ι ρ)) : ProbedSince i old new (log ++ l) (since ++ l) := by
  obtain ⟨hread, called, hcalled⟩ := h
  exact ⟨hread.append l, called, List.mem_append_left _ hcalled⟩

theorem Published.append (h : Published i old new log) (l : List (Event ι ρ)) :
    Published i old new (log ++ l) := by
  obtain ⟨before, since, after, called, rfl, hcalled, hw⟩ := h
  exact ⟨before, since, after ++ l, called, by simp, hcalled, hw⟩

/-- A swap that finds the value read publishes the value probed. -/
theorem ProbedSince.published {since : List (Event ι ρ)} (h : ProbedSince i old new log since)
    (hstate : stateAfter .unknown log = old) : Published i old new (log ++ [.wrote i old new]) := by
  obtain ⟨hread, called, hcalled⟩ := h
  rw [hread.stateAfter] at hstate
  obtain ⟨before, rfl, -⟩ := hread
  exact ⟨before, since, [], called, by simp, hcalled, stateAfter_eq_self.mp hstate⟩

/-! ### The invariant of a scan -/

/-- What the log holds for a scan at a control point. -/
def StatusScanPoint.Recorded (i : ι) (log : List (Event ι ρ)) : StatusScanPoint → Prop
  | reading (.read old) => ∃ since, ReadAt i old log since
  | reading (.returned old) => ∃ since, ReadAt i old log since
  | updating old new .entry => ∃ since, ProbedSince i old new log since
  | _ => True

/-- The log has what the status scan has done so far, and a state that it wrote is published. -/
def Call.Recorded (i : ι) (log : List (Event ι ρ)) : Call ρ → Prop
  | statusScan p =>
    p.Recorded i log ∧ ∀ old new, .wrote i old new ∈ log → Published i old new log
  | _ => True

theorem StatusScanPoint.Recorded.append {p : StatusScanPoint} (h : p.Recorded i log)
    (l : List (Event ι ρ)) : p.Recorded i (log ++ l) := by
  cases p with
  | reading p =>
    cases p with
    | read old | returned old =>
      obtain ⟨since, hs⟩ := h
      exact ⟨since ++ l, hs.append l⟩
    | _ => trivial
  | updating old new p =>
    cases p with
    | entry =>
      obtain ⟨since, hs⟩ := h
      exact ⟨since ++ l, hs.append l⟩
    | _ => trivial
  | thrown e => trivial

theorem Call.Recorded.concat {k : Call ρ} (h : k.Recorded i log) {e : Event ι ρ}
    (he : ∀ old new, e ≠ .wrote i old new) : k.Recorded i (log ++ [e]) := by
  cases k with
  | statusScan p =>
    refine ⟨h.1.append [e], fun old new hw => ?_⟩
    have hw : .wrote i old new ∈ log := by simpa [(he old new).symm] using hw
    exact (h.2 old new hw).append [e]
  | _ => trivial

variable [DecidableEq ι] [DecidableEq ρ] {m : AbstractApplicationManager ρ η} {answer : Answer η}
  {d d' : ApplicationDescriptor ι ρ}

/-- **The step of a scan.** -/
theorem recorded_of_statusScan {p p' : StatusScanPoint}
    (hstate : d.state = stateAfter .unknown d.log)
    (hp : (Call.statusScan p : Call ρ).Recorded i d.log)
    (h : statusScan m i answer d p = some (d', p')) :
    (Call.statusScan p' : Call ρ).Recorded i d'.log := by
  obtain ⟨hpoint, hwrites⟩ := hp
  have hkeep : ∀ e : Event ι ρ, (∀ old new, e ≠ .wrote i old new) →
      ∀ old new, .wrote i old new ∈ d.log ++ [e] → Published i old new (d.log ++ [e]) :=
    fun e he => (Call.Recorded.concat (k := .statusScan p) ⟨hpoint, hwrites⟩ he).2
  rcases p with (_ | _ | old | old) | ⟨old, new, _ | _ | _⟩ | _
  · obtain ⟨⟨d₁, p₁⟩, hget, heq⟩ := Option.map_eq_some_iff.mp h
    obtain ⟨rfl, rfl⟩ := Prod.mk.inj heq
    obtain ⟨d₂, hd, heq⟩ := Option.map_eq_some_iff.mp hget
    obtain ⟨rfl, rfl⟩ := Prod.mk.inj heq
    have heff : Effect m i answer d ⟨false, .idle⟩ d₂ ⟨true, .idle⟩ := effect_of_enter hd
    cases heff with
    | enter => exact ⟨trivial, hwrites⟩
  · obtain ⟨rfl, rfl⟩ := Prod.mk.inj (Option.some.inj h)
    exact ⟨⟨[], d.log, rfl, hstate.symm⟩, hkeep _ (by simp)⟩
  · obtain ⟨rfl, rfl⟩ := Prod.mk.inj (Option.some.inj h)
    exact ⟨hpoint, hwrites⟩
  · simp only [statusScan] at h
    split at h
    · split at h
      · obtain ⟨rfl, rfl⟩ := Prod.mk.inj (Option.some.inj h)
        obtain ⟨since, hread⟩ := hpoint
        exact ⟨⟨_, hread.append _, _, List.mem_append_right _ (List.mem_singleton_self _)⟩,
          hkeep _ (by simp)⟩
      · obtain ⟨rfl, rfl⟩ := Prod.mk.inj (Option.some.inj h)
        exact ⟨trivial, hwrites⟩
    · cases h
  · simp only [statusScan, compareAndSetApplicationState] at h
    split at h
    · rename_i hold
      obtain ⟨rfl, rfl⟩ := Prod.mk.inj (Option.some.inj h)
      subst hold
      obtain ⟨since, hprobed⟩ := hpoint
      refine ⟨trivial, fun old' new' hw => ?_⟩
      obtain hw | hw := List.mem_append.mp hw
      · exact (hwrites old' new' hw).append _
      · obtain ⟨rfl, rfl⟩ := by simpa using hw
        exact hprobed.published hstate.symm
    · obtain ⟨rfl, rfl⟩ := Prod.mk.inj (Option.some.inj h)
      exact ⟨trivial, hwrites⟩
  · obtain ⟨rfl, rfl⟩ := Prod.mk.inj (Option.some.inj h)
    exact ⟨trivial, hkeep _ (by simp)⟩
  · cases h
  · cases h

variable {P : DescriptorConfig ι ρ → ι × Answer η → Prop} {c : DescriptorConfig ι ρ}

/-- What is asserted of a thread that has or has not begun. -/
def Thread.Recorded (i : ι) (log : List (Event ι ρ)) : Thread Operation (Call ρ) → Prop
  | ready _ => ∀ old new, .wrote i old new ∉ log
  | running k => k.Recorded i log

omit [DecidableEq ι] [DecidableEq ρ] in
theorem Thread.Recorded.concat {t : Thread Operation (Call ρ)} (h : t.Recorded i log)
    {e : Event ι ρ} (he : e.owner ≠ i) : t.Recorded i (log ++ [e]) := by
  have hne : ∀ old new, e ≠ .wrote i old new := by
    rintro old new rfl
    exact he rfl
  cases t with
  | ready o =>
    intro old new hw
    exact h old new (by simpa [(hne old new).symm] using hw)
  | running k => exact Call.Recorded.concat h hne

theorem recorded_of_next {k k' : Call ρ} (hstate : d.state = stateAfter .unknown d.log)
    (hk : k.Recorded i d.log) (h : k.next m i answer d = some (d', k')) :
    k'.Recorded i d'.log := by
  cases k <;> obtain ⟨⟨d₁, p₁⟩, hp, heq⟩ := Option.map_eq_some_iff.mp h <;>
    obtain ⟨rfl, rfl⟩ := Prod.mk.inj heq
  case statusScan => exact recorded_of_statusScan hstate hk hp
  all_goals trivial

theorem recorded_of_reachable (h : (descriptorMachine ι m).ReachableOf P c) (i : ι) :
    (c.thread i).Recorded i c.shared.log := by
  refine (Interleaving.owickiGries_next (G := fun _ => True)
    (J := fun i d t => t.Recorded i d.log) h ⟨trivial, fun i o => ?_⟩ ?_ ?_ ?_).2 i
  · intro old new hmem
    cases hmem
  · intro c i e o _ hc _ ho
    have hi := hc.2 i
    rw [ho] at hi
    cases o with
    | statusScan => exact ⟨trivial, fun old new hw => absurd hw (hi old new)⟩
    | _ => trivial
  · intro c i e k d' k' hr hc _ hk hn
    have hi := hc.2 i
    rw [hk] at hi
    exact ⟨trivial, recorded_of_next (state_eq_stateAfter hr) hi hn⟩
  · intro c i e k d' k' j _ hc _ _ hn hj
    obtain hlog | ⟨x, hx, hlog⟩ := (Call.effect_of_next hn).log_eq
    · rw [hlog]
      exact hc.2 j
    · rw [hlog]
      exact (hc.2 j).concat (hx ▸ hj.symm)

/-- **What a scan publishes.** If a status scan has replaced `old` by `new`, then it had read
`old`, had probed `new` after that, and in between nobody else wrote, or the last to write
restored `old`. -/
theorem statusScan_published (h : (descriptorMachine ι m).Reachable c) (i : ι)
    (hi : (calls ι m).opOf (c.thread i) = .statusScan) (old new : ApplicationState)
    (hw : .wrote i old new ∈ c.shared.log) : Published i old new c.shared.log := by
  have hrec := recorded_of_reachable h i
  cases ht : c.thread i with
  | ready o =>
    rw [ht] at hrec
    exact absurd hw (hrec old new)
  | running k =>
    rw [ht] at hrec hi
    cases k with
    | statusScan p => exact hrec.2 old new hw
    | _ => cases hi

/-! ### A stale probe -/

section Example

/-- Two scans and a kill. -/
def scansAndKill : DescriptorConfig Nat Unit where
  shared := .new
  thread i := .ready (if i = 1 then .kill else .statusScan)

/-- Call `0` reads `UNKNOWN` and probes `RUNNING`; the application is killed; call `2` probes
`UNKNOWN` and writes it; call `0` compares `UNKNOWN` and writes `RUNNING`. -/
def staleSchedule : List (Nat × Answer (Except Throwable Unit)) :=
  [(0, .go), (0, .go), (0, .go), (0, .go), (0, .probe (.ok ()) none),
    (1, .go), (1, .kill (.ok ()) true), (1, .go), (1, .go), (1, .go), (1, .go),
    (2, .go), (2, .go), (2, .go), (2, .go), (2, .probe (.error (.thrown .exception)) none),
    (2, .go), (2, .go),
    (0, .go), (0, .go)]

/-- A scan can write what it has probed before a kill, when a later write has restored the value
that it has read. -/
theorem exists_stale_probe :
    ∃ c, (descriptorMachine Nat (.unconstrained Unit)).Reachable c ∧
      (calls Nat (.unconstrained Unit)).opOf (c.thread 0) = .statusScan ∧
      InOrder [.read 0 .unknown, .probed 0 true .running, .killed 1, .wrote 1 .unknown .killed,
        .wrote 0 .unknown .running] c.shared.log := by
  obtain ⟨c, hr, hc⟩ := (descriptorMachine Nat (.unconstrained Unit)).exists_run_of_exec
    scansAndKill staleSchedule
    (fun c => (calls Nat (.unconstrained Unit)).opOf (c.thread 0) = .statusScan ∧
      InOrder [.read 0 .unknown, .probed 0 true .running, .killed 1, .wrote 1 .unknown .killed,
        .wrote 0 .unknown .running] c.shared.log) (by decide)
  exact ⟨c, ⟨scansAndKill, ⟨rfl, fun _ => ⟨_, rfl⟩⟩, hr⟩, of_decide_eq_true hc⟩

/-- The scan of `staleSchedule` has published. -/
theorem statusScan_published_staleSchedule :
    ∃ c, (descriptorMachine Nat (.unconstrained Unit)).Reachable c ∧
      Published 0 .unknown .running c.shared.log := by
  obtain ⟨c, hr, hc⟩ := (descriptorMachine Nat (.unconstrained Unit)).exists_run_of_exec
    scansAndKill staleSchedule
    (fun c => (calls Nat (.unconstrained Unit)).opOf (c.thread 0) = .statusScan ∧
      .wrote 0 .unknown .running ∈ c.shared.log) (by decide)
  have hreach : (descriptorMachine Nat (.unconstrained Unit)).Reachable c :=
    ⟨scansAndKill, ⟨rfl, fun _ => ⟨_, rfl⟩⟩, hr⟩
  obtain ⟨hi, hw⟩ := of_decide_eq_true hc
  exact ⟨c, hreach, statusScan_published hreach 0 hi _ _ hw⟩

end Example

end Shabdiz
