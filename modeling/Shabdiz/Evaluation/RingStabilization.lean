import Shabdiz.Concurrency.History
import Shabdiz.Concurrency.Machine
import Shabdiz.Core.AbstractApplicationManager

/-!
# Waiting for a stable ring

`ChordRingSizeScanner.scan` measures the ring in both directions from the first running peer. If
the lengths agree, it stores the length and fires a change event. `timeRingStabilization` registers
a listener that opens a latch on an event with `network_size`, awaits the latch, and removes the
listener.

An event is fired only when the stable size *changes*. A ring that was announced at `network_size`
before the listener was registered, and stays as it is, is therefore not announced again. The main
result says exactly what the wait depends on.

`scan` is synchronized, so one scan follows another; storing the size and firing are two steps,
between which the experiment can go on. What `ChordMonitoring` measures is part of the action. The
wait may also be left by an interrupt, which is left out: the experiment ends then.

## Main definitions

* `ChordRingSizeScanner`, `ChordRingSizeScanner.scan` — a scan, up to its event
* `RingWait`, `ringWaitMachine` — the scanner and the waiting experiment

## Main results

* `RingHeard.step` — what each step keeps
* `latchOpen_iff` — the latch opens when the announced size becomes `network_size`
-/

namespace Shabdiz

/-- The scanner: the last stable size, and the event that the scan which stored it is to fire. -/
structure ChordRingSizeScanner where
  ringSize : Int32
  event : Option (Int32 × Int32)
deriving DecidableEq

namespace ChordRingSizeScanner

variable {δ : Type}

/-- The first descriptor of the network that is running; `none` is `null`. -/
def getFirstRunningPeer (network : List (δ × ApplicationState)) : Option δ :=
  (network.find? (·.2 = .running)).map Prod.fst

/-- The lengths in the two directions, where `none` is an exception, which the scan logs. -/
def scan (network : List (δ × ApplicationState)) (cycleLengthFrom : Option δ → Bool → Option Int32)
    (s : ChordRingSizeScanner) : ChordRingSizeScanner :=
  let start := getFirstRunningPeer network
  match cycleLengthFrom start true, cycleLengthFrom start false with
  | some forwards, some backwards =>
    if forwards = backwards then ⟨forwards, some (s.ringSize, forwards)⟩ else s
  | _, _ => s

end ChordRingSizeScanner

/-- The control points of `timeRingStabilization`. -/
inductive StabilizationPoint where
  | addListener
  | await
  | removeListener
  | returned
deriving DecidableEq

/-- The scanner and the experiment that waits. -/
structure RingWait where
  scanner : ChordRingSizeScanner
  listening : Bool
  /-- The count of `stabilization_latch` is zero. -/
  latchOpen : Bool
  experiment : StabilizationPoint
  /-- The size that was announced last when the listener was registered, and those that have been
  announced since; until then, only the last one. No code reads it. -/
  announced : List Int32
deriving DecidableEq

/-- What happens next. -/
inductive RingAction (δ : Type) where
  /-- A scan, up to its event. -/
  | scan (network : List (δ × ApplicationState)) (cycleLengthFrom : Option δ → Bool → Option Int32)
  | fireRingSizeChange
  /-- The experiment goes on. -/
  | experiment

namespace RingWait

variable {δ : Type}

/-- `firePropertyChange`, which notifies only of a change, and the listener. -/
def fireRingSizeChange (networkSize : Int32) (w : RingWait) : Option RingWait :=
  w.scanner.event.map fun event =>
    { w with
      scanner := { w.scanner with event := none }
      latchOpen := w.latchOpen || (w.listening && event.1 ≠ event.2 && event.2 = networkSize)
      announced := (if w.experiment = .addListener then [] else w.announced) ++ [event.2] }

/-- One step of `timeRingStabilization`; `await` returns once the latch is open. -/
def timeRingStabilization (w : RingWait) : Option RingWait :=
  match w.experiment with
  | .addListener => some { w with listening := true, experiment := .await }
  | .await => if w.latchOpen then some { w with experiment := .removeListener } else none
  | .removeListener => some { w with listening := false, experiment := .returned }
  | .returned => none

/-- One step of the wait: a scan while no event is to be fired, the firing, or the experiment. -/
def next (networkSize : Int32) (w : RingWait) : RingAction δ → Option RingWait
  | .scan network cycleLengthFrom =>
    if w.scanner.event = none then
      some { w with scanner := w.scanner.scan network cycleLengthFrom }
    else none
  | .fireRingSizeChange => w.fireRingSizeChange networkSize
  | .experiment => w.timeRingStabilization

end RingWait

/-- The scanner and the experiment. The scanner may have made scans before. -/
def ringWaitMachine (δ : Type) (networkSize : Int32) : Machine RingWait (RingAction δ) where
  init w := ∃ ringSize, w = ⟨⟨ringSize, none⟩, false, false, .addListener, [ringSize]⟩
  step w a := w.next networkSize a

section Heard

variable {δ : Type} {n : Int32} {w w' : RingWait} {a : RingAction δ} {sizes : List Int32}

/-- The size became `n`: after another size, `n` came. -/
def Became (n : Int32) (sizes : List Int32) : Prop := ∃ m, m ≠ n ∧ InOrder [m, n] sizes

theorem not_became_singleton {m : Int32} : ¬ Became n [m] := by
  rintro ⟨k, -, h⟩
  exact absurd h.length_le (by simp)

/-- **One more size.** It completes the pattern if it is `n` and the one before it is not. -/
theorem became_concat {last : Int32} (hlast : sizes.getLast? = some last) (new : Int32) :
    Became n (sizes ++ [new]) ↔ Became n sizes ∨ (last ≠ new ∧ new = n) := by
  have hmem : last ∈ sizes := List.mem_of_getLast? hlast
  constructor
  · rintro ⟨m, hm, h⟩
    rcases inOrder_pair_concat.mp h with h | ⟨hmem, rfl⟩
    · exact .inl ⟨m, hm, h⟩
    · by_cases hl : last = n
      · subst hl
        obtain ⟨before, hsizes⟩ := List.getLast?_eq_some_iff.mp hlast
        rw [hsizes] at hmem ⊢
        refine .inl ⟨m, hm, inOrder_pair_concat.mpr (.inr ⟨?_, rfl⟩)⟩
        exact (List.mem_append.mp hmem).resolve_right (by simpa using hm)
      · exact .inr ⟨hl, rfl⟩
  · rintro (⟨m, hm, h⟩ | ⟨hne, rfl⟩)
    · exact ⟨m, hm, h.append [new]⟩
    · exact ⟨last, hne, inOrder_pair_concat.mpr (.inr ⟨hmem, rfl⟩)⟩

/-- What the latch has heard: the event that is to be fired goes from the size announced last to
the one that is stored, the listener is there while the experiment waits, and the latch is open
exactly if the announced size has become `n`. -/
structure RingHeard (n : Int32) (w : RingWait) : Prop where
  last : w.announced.getLast? = some (w.scanner.event.elim w.scanner.ringSize Prod.fst)
  stored : ∀ event, w.scanner.event = some event → event.2 = w.scanner.ringSize
  single : w.experiment = .addListener →
    w.announced.length = 1 ∧ w.listening = false ∧ w.latchOpen = false
  listening : w.experiment = .await → w.listening = true
  passed : w.experiment = .removeListener ∨ w.experiment = .returned → w.latchOpen = true
  latch : w.latchOpen = true ↔ Became n w.announced

theorem RingHeard.scan (h : RingHeard n w) (hevent : w.scanner.event = none)
    (network : List (δ × ApplicationState)) (cycleLengthFrom : Option δ → Bool → Option Int32) :
    RingHeard n { w with scanner := w.scanner.scan network cycleLengthFrom } := by
  have hkeep : RingHeard n { w with scanner := w.scanner } := h
  have hlast := h.last
  rw [hevent] at hlast
  rw [ChordRingSizeScanner.scan]
  split
  · split
    · refine ⟨hlast, ?_, h.single, h.listening, h.passed, h.latch⟩
      rintro event ⟨⟩
      rfl
    · exact hkeep
  · exact hkeep

theorem RingHeard.fire (h : RingHeard n w) (hs : w.fireRingSizeChange n = some w') :
    RingHeard n w' := by
  obtain ⟨⟨old, new⟩, hevent, rfl⟩ := Option.map_eq_some_iff.mp hs
  have hnew : new = w.scanner.ringSize := h.stored _ hevent
  have hlast : w.announced.getLast? = some old := by
    rw [h.last, hevent]
    rfl
  by_cases hadd : w.experiment = .addListener
  · obtain ⟨-, hlistening, hlatch⟩ := h.single hadd
    refine ⟨?_, by rintro _ ⟨⟩, fun _ => ?_, h.listening, fun hpassed => ?_, ?_⟩
    · simp [hadd, hnew]
    · simp [hadd, hlistening, hlatch]
    · rcases hpassed with hpassed | hpassed <;> cases hadd.symm.trans hpassed
    · simpa [hadd, hlistening, hlatch] using not_became_singleton
  · refine ⟨?_, by rintro _ ⟨⟩, fun hadd' => absurd hadd' hadd, h.listening, fun hpassed => ?_, ?_⟩
    · simp [hadd, hnew]
    · simp [h.passed hpassed]
    · have hbecame := became_concat (n := n) hlast new
      by_cases hopen : w.latchOpen = true
      · simp [hadd, hopen, hbecame, h.latch.mp hopen]
      · have hwaits : w.experiment = .await := by
          cases hw : w.experiment with
          | addListener => exact absurd hw hadd
          | await => rfl
          | removeListener => exact absurd (h.passed (.inl hw)) hopen
          | returned => exact absurd (h.passed (.inr hw)) hopen
        simp [hadd, hopen, hbecame, h.latch.not.mp hopen, h.listening hwaits]

theorem RingHeard.stabilization (h : RingHeard n w) (hs : w.timeRingStabilization = some w') :
    RingHeard n w' := by
  simp only [RingWait.timeRingStabilization] at hs
  split at hs
  · next hadd =>
    obtain rfl := Option.some.inj hs
    refine ⟨h.last, h.stored, by rintro ⟨⟩, fun _ => rfl, ?_, h.latch⟩
    rintro (⟨⟨⟩⟩ | ⟨⟨⟩⟩)
  · split at hs
    · next hopen =>
      obtain rfl := Option.some.inj hs
      exact ⟨h.last, h.stored, by rintro ⟨⟩, by rintro ⟨⟩, fun _ => hopen, h.latch⟩
    · cases hs
  · next hremove =>
    obtain rfl := Option.some.inj hs
    exact ⟨h.last, h.stored, by rintro ⟨⟩, by rintro ⟨⟩, fun _ => h.passed (.inl hremove), h.latch⟩
  · cases hs

theorem RingHeard.step (h : RingHeard n w) (hs : (ringWaitMachine δ n).step w a = some w') :
    RingHeard n w' := by
  cases a with
  | scan network cycleLengthFrom =>
    simp only [ringWaitMachine, RingWait.next] at hs
    split at hs
    · next hevent =>
      obtain rfl := Option.some.inj hs
      exact h.scan hevent network cycleLengthFrom
    · cases hs
  | fireRingSizeChange => exact h.fire hs
  | experiment => exact h.stabilization hs

theorem ringHeard_of_reachable (h : (ringWaitMachine δ n).Reachable w) : RingHeard n w := by
  refine h.invariant (fun w hinit => ?_) fun w a w' _ hw _ hs => hw.step hs
  obtain ⟨ringSize, rfl⟩ := hinit
  refine ⟨rfl, by rintro _ ⟨⟩, fun _ => ⟨rfl, rfl, rfl⟩, by rintro ⟨⟩, ?_, ?_⟩
  · rintro (⟨⟨⟩⟩ | ⟨⟨⟩⟩)
  · exact iff_of_false (by simp) not_became_singleton

/-- **What the wait depends on.** However scans and the experiment interleave: once the listener is
registered, the experiment can leave its wait, or has left it, exactly if the stable size that is
announced has become `network_size` since: another size was the last one before. A ring that had
reached that size before the listener was registered and stays as it is keeps it waiting. -/
theorem latchOpen_iff (h : (ringWaitMachine δ n).Reachable w) (hw : w.experiment ≠ .addListener) :
    ((∃ w', w.timeRingStabilization = some w') ∨ w.experiment = .returned) ↔
      Became n w.announced := by
  have hheard := ringHeard_of_reachable h
  rw [← hheard.latch]
  cases he : w.experiment with
  | addListener => exact absurd he hw
  | await =>
    simp only [RingWait.timeRingStabilization, he, reduceCtorEq, or_false]
    split
    · next hopen => exact iff_of_true ⟨_, rfl⟩ hopen
    · next hclosed => exact iff_of_false (by rintro ⟨_, ⟨⟩⟩) hclosed
  | removeListener =>
    have hleft : w.timeRingStabilization =
        some { w with listening := false, experiment := .returned } := by
      rw [RingWait.timeRingStabilization, he]
    exact iff_of_true (.inl ⟨_, hleft⟩) (hheard.passed (.inl he))
  | returned => exact iff_of_true (.inr rfl) (hheard.passed (.inr he))

end Heard

section Example

/-- A scan that finds `size` nodes in both directions. -/
def stableScan (size : Int32) : RingAction Unit := .scan [((), .running)] fun _ _ => some size

/-- The third node joins after the listener is registered. -/
theorem latchOpen_iff_growing :
    ∃ w : RingWait, w.experiment = .await ∧ w.announced = [2, 3] ∧
      ((∃ w', w.timeRingStabilization = some w') ∨ w.experiment = .returned) := by
  obtain ⟨w, hrun, hw⟩ := (ringWaitMachine Unit 3).exists_run_of_exec
    ⟨⟨0, none⟩, false, false, .addListener, [0]⟩
    [stableScan 2, .fireRingSizeChange, .experiment, stableScan 3, .fireRingSizeChange]
    (fun w => w.experiment = .await ∧ w.announced = [2, 3]) (by decide)
  obtain ⟨hawait, hannounced⟩ := of_decide_eq_true hw
  refine ⟨w, hawait, hannounced, (latchOpen_iff ⟨_, ⟨0, rfl⟩, hrun⟩ (by simp [hawait])).mpr ?_⟩
  exact ⟨2, by decide, by rw [hannounced]; exact List.Sublist.refl _⟩

end Example

end Shabdiz
