import Mathlib.Algebra.BigOperators.Group.Finset.Basic
import Mathlib.Algebra.Ring.Int.Defs
import Shabdiz.Core.SharedSchedule
import Shabdiz.Job.JobMachine

/-!
# The hash codes of a network and its workers

Two networks are equal only if they are the same, but the hash code of a network is made from two
maps that change, and the hash code of a worker from that of its network. The map of futures does
not show: the hash code of a `FutureRemote` is that of its job id, which is its key, and an entry
is the exclusive or of the two. The map of scanners does: with every scanner that is added, removed
or scheduled again, the network has another hash code, unless two entries happen to agree.

What the objects of the JVM and of the RPC layer have for hash codes is a parameter; such a hash
code never changes.

## Main definitions

* `HashCodeUtil.generate` — the code
* `Hashes`, `Hashes.network`, `Hashes.worker` — the hash codes, from those of the parts
* `MapWrite`, `RunningCall.mapWrite` — what a step does to the map of scanners
* `KeepsEntries`, `HashCodesStable` — a step that does not show, and runs in which none does
* `workerNetworkMachine` — calls on the scanners, and everything that happens to jobs

## Main results

* `Hashes.idFutureMap_eq_zero` — jobs do not show
* `Hashes.network_eq_iff` — the hash code of the map of scanners shows, and nothing else
* `hashCodes_stable_iff` — the runs in which the hash codes stay the same
-/

namespace Shabdiz

/-! ### The code -/

/-- No call passes `null` or nothing, for which the method throws. -/
def HashCodeUtil.generate (first : Int32) (rest : List Int32) : Int32 :=
  rest.foldl (fun result hash => 31 * result + hash) first

/-- The hash codes of what a network and its workers consist of. -/
structure Hashes (S ω ι : Type) where
  /-- `Object.hashCode` of the network. -/
  identity : Int32
  applicationName : Int32
  /-- The id of a scanner. -/
  scanner : S → Int32
  scheduledFuture : ScheduledFuture S → Int32
  callbackAddress : Int32
  jobId : ι → Int32
  callbackServer : Int32
  workerManager : Int32
  callbackServerFactory : Int32
  workerAddress : ω → Int32
  proxy : ω → Int32

namespace Hashes

variable {S ω ι J V E : Type}

/-- `Objects.hashCode`, for a value of `scheduled_scanners`. -/
def value (H : Hashes S ω ι) : Option (ScheduledFuture S) → Int32
  | some future => H.scheduledFuture future
  | none => 0

/-- An entry of a map: the key's hash code and the value's. -/
def entry (H : Hashes S ω ι) (m : ScheduledScanners S) (s : S) : Int32 :=
  H.scanner s ^^^ H.value (m.get s)

/-- `AbstractMap.hashCode`: the sum of the entries. -/
def scheduledScanners (H : Hashes S ω ι) (m : ScheduledScanners S) : Int32 :=
  .ofInt (∑ s ∈ m.keys, (H.entry m s).toInt)

/-- `FutureRemote.hashCode`. -/
def futureRemote (H : Hashes S ω ι) (id : ι) : Int32 := H.jobId id

/-- The hash code of the map of futures. -/
def idFutureMap (H : Hashes S ω ι) (n : WorkerNetwork ω ι J V E) : Int32 :=
  .ofInt (n.idFutureMap.map fun id => (H.jobId id ^^^ H.futureRemote id).toInt).sum

/-- `ApplicationNetwork.hashCode`. -/
def applicationNetwork (H : Hashes S ω ι) (n : ScannerSchedule S) : Int32 :=
  HashCodeUtil.generate H.identity [H.applicationName, H.scheduledScanners n.scheduledScanners]

/-- `WorkerNetwork.hashCode`. -/
def network (H : Hashes S ω ι) (n : ScannerSchedule S) (jobs : WorkerNetwork ω ι J V E) : Int32 :=
  HashCodeUtil.generate (H.applicationNetwork n)
    [H.callbackAddress, H.idFutureMap jobs, H.callbackServer, H.workerManager,
      H.callbackServerFactory]

/-- `Worker.hashCode`. -/
def worker (H : Hashes S ω ι) (n : ScannerSchedule S) (jobs : WorkerNetwork ω ι J V E) (w : ω) :
    Int32 :=
  HashCodeUtil.generate (H.network n jobs) [H.workerAddress w, H.proxy w]

end Hashes

/-! ### What shows -/

section Shows

variable {S ω ι J V E : Type} {H : Hashes S ω ι} {n n' : ScannerSchedule S}
  {jobs jobs' : WorkerNetwork ω ι J V E}

theorem generate_cons (first hash : Int32) (rest : List Int32) :
    HashCodeUtil.generate first (hash :: rest) =
      HashCodeUtil.generate (31 * first + hash) rest := rfl

/-- Multiplication by 31 can be undone. -/
theorem mul_31_inj {a b : Int32} : 31 * a = 31 * b ↔ a = b := by
  have hinverse (c : Int32) : 3186588639 * (31 * c) = c := by
    rw [← Int32.mul_assoc, show (3186588639 * 31 : Int32) = 1 by decide, Int32.one_mul]
  constructor
  · intro h
    rw [← hinverse a, h, hinverse b]
  · rintro rfl
    rfl

/-- What comes first shows. -/
theorem generate_inj {a b : Int32} {rest : List Int32} :
    HashCodeUtil.generate a rest = HashCodeUtil.generate b rest ↔ a = b := by
  induction rest generalizing a b with
  | nil => exact Iff.rfl
  | cons hash rest ih =>
    rw [generate_cons, generate_cons, ih, Int32.add_left_inj, mul_31_inj]

/-- **Jobs do not show**: an entry's key and value have the same hash code. -/
theorem Hashes.idFutureMap_eq_zero (H : Hashes S ω ι) (jobs : WorkerNetwork ω ι J V E) :
    H.idFutureMap jobs = 0 := by
  have hsum : (jobs.idFutureMap.map fun id =>
      (H.jobId id ^^^ H.futureRemote id).toInt).sum = 0 := by
    refine List.sum_eq_zero fun x hx => ?_
    obtain ⟨id, -, rfl⟩ := List.mem_map.mp hx
    rw [futureRemote, Int32.xor_self]
    rfl
  rw [idFutureMap, hsum]
  rfl

/-- **The hash code of the map of scanners shows**, and nothing else. -/
theorem Hashes.network_eq_iff :
    H.network n' jobs' = H.network n jobs ↔
      H.scheduledScanners n'.scheduledScanners = H.scheduledScanners n.scheduledScanners := by
  have hfold (n : ScannerSchedule S) (jobs : WorkerNetwork ω ι J V E) : H.network n jobs =
      HashCodeUtil.generate (31 * (31 * H.identity + H.applicationName) +
        H.scheduledScanners n.scheduledScanners)
        [H.callbackAddress, 0, H.callbackServer, H.workerManager, H.callbackServerFactory] := by
    rw [network, H.idFutureMap_eq_zero]
    rfl
  rw [hfold, hfold, generate_inj, Int32.add_right_inj]

theorem Hashes.worker_eq_iff {w : ω} :
    H.worker n' jobs' w = H.worker n jobs w ↔ H.network n' jobs' = H.network n jobs :=
  generate_inj

end Shows

/-! ### Writes to the map of scanners -/

/-- A call of `put` or of `remove` on `scheduled_scanners`. -/
inductive MapWrite (S : Type) where
  | put (s : S) (future : Option (ScheduledFuture S))
  | remove (s : S)

namespace MapWrite

variable {S ω ι : Type} [DecidableEq S]

/-- The scanner that the write is about. -/
def scanner : MapWrite S → S
  | put s _ => s
  | remove s => s

/-- The map after the write. -/
def apply (m : ScheduledScanners S) : MapWrite S → ScheduledScanners S
  | put s future => m.put s future
  | remove s => m.remove s

/-- What the scanner's entry adds to the hash code before the write. -/
def before (H : Hashes S ω ι) (m : ScheduledScanners S) (w : MapWrite S) : Int32 :=
  if w.scanner ∈ m.keys then H.entry m w.scanner else 0

/-- What it adds after the write. -/
def after (H : Hashes S ω ι) : MapWrite S → Int32
  | put s future => H.scanner s ^^^ H.value future
  | remove _ => 0

/-- **What a write does to the hash code**: one entry is replaced. -/
theorem scheduledScanners_apply_eq_iff (H : Hashes S ω ι) (m : ScheduledScanners S)
    (w : MapWrite S) :
    H.scheduledScanners (w.apply m) = H.scheduledScanners m ↔ w.after H = w.before H m := by
  -- The entries of the other scanners.
  let rest : Int32 := .ofInt (∑ t ∈ m.keys.erase w.scanner, (H.entry m t).toInt)
  have hbefore : H.scheduledScanners m = w.before H m + rest := by
    rw [Hashes.scheduledScanners, before]
    split
    · next hmem =>
      rw [← Finset.add_sum_erase _ _ hmem, Int32.ofInt_add, Int32.ofInt_toInt]
    · next hmem =>
      rw [Int32.zero_add]
      show _ = Int32.ofInt _
      rw [Finset.erase_eq_of_notMem hmem]
  have hafter : H.scheduledScanners (w.apply m) = w.after H + rest := by
    have hothers : ∀ t ∈ m.keys.erase w.scanner, H.entry (w.apply m) t = H.entry m t := by
      intro t ht
      have hget : (w.apply m).get t = m.get t := by
        cases w with
        | put s future => exact Function.update_of_ne (Finset.ne_of_mem_erase ht) _ _
        | remove s => exact Function.update_of_ne (Finset.ne_of_mem_erase ht) _ _
      rw [Hashes.entry, hget, Hashes.entry]
    cases w with
    | put s future =>
      have hmem : s ∈ (m.put s future).keys := Finset.mem_insert_self _ _
      have hself : H.entry (m.put s future) s = H.scanner s ^^^ H.value future := by
        simp [Hashes.entry]
      rw [Hashes.scheduledScanners, apply, ← Finset.add_sum_erase _ _ hmem, Int32.ofInt_add,
        Int32.ofInt_toInt, hself, ScheduledScanners.put_keys, Finset.erase_insert_eq_erase]
      exact congrArg _ (congrArg _ (Finset.sum_congr rfl fun t ht =>
        congrArg _ (hothers t ht)))
    | remove s =>
      rw [Hashes.scheduledScanners, after, Int32.zero_add]
      exact congrArg _ (Finset.sum_congr rfl fun t ht => congrArg _ (hothers t ht))
  rw [hbefore, hafter, Int32.add_left_inj]

end MapWrite

/-! ### The steps of the calls -/

section Steps

variable {S κ : Type} [DecidableEq S] [DecidableEq κ]

/-- What the listener writes when it is told that a scanner is enabled. -/
def SetEnabledPoint.mapWrite (s : S) (enabled : Bool) (m : SharedSchedule κ S) :
    SetEnabledPoint → Option (MapWrite S)
  | notifying (_ + 1) =>
    if enabled && !m.schedule.isShutdown then some (.put s (some ⟨s, m.schedule.nextId⟩)) else none
  | _ => none

/-- What the next step of a call writes to the map of scanners. -/
def RunningCall.mapWrite (m : SharedSchedule κ S) : RunningCall S → Option (MapWrite S)
  | addScanner s (.read true) =>
    if m.schedule.isShutdown then none else some (.put s (some ⟨s, m.schedule.nextId⟩))
  | addScanner s (.read false) => some (.put s none)
  | removeScanner s .entry => if m.schedule.isAdded s then some (.remove s) else none
  | setEnabled s enabled p => p.mapWrite s enabled m
  | setScanEnabled enabled (.setting s p _ _) => p.mapWrite s enabled m
  | _ => none

/-- The map after a write, if there is one. -/
def writeMap (w : Option (MapWrite S)) (m : ScheduledScanners S) : ScheduledScanners S :=
  match w with
  | some w => w.apply m
  | none => m

variable {i : κ} {m m' : SharedSchedule κ S} {s : S} {enabled : Bool}

omit [DecidableEq κ] in
theorem map_of_addScanner {p p' : AddScannerPoint} (h : m.addScanner i s p = some (m', p')) :
    m'.schedule.scheduledScanners =
      writeMap ((RunningCall.addScanner s p).mapWrite m) m.schedule.scheduledScanners := by
  cases p with
  | entry =>
    obtain ⟨-, rfl, rfl⟩ := map_enter_eq_some h
    rfl
  | locked =>
    simp only [SharedSchedule.addScanner] at h
    split at h <;> obtain ⟨rfl, rfl⟩ := Prod.mk.inj (Option.some.inj h) <;> rfl
  | listening =>
    obtain ⟨rfl, rfl⟩ := Prod.mk.inj (Option.some.inj h)
    rfl
  | read enabled =>
    simp only [SharedSchedule.addScanner, ScannerSchedule.scheduleScanner] at h
    cases enabled with
    | false =>
      obtain ⟨rfl, rfl⟩ := Prod.mk.inj (Option.some.inj h)
      rfl
    | true =>
      cases hdown : m.schedule.isShutdown with
      | true =>
        simp only [hdown, if_true] at h
        obtain ⟨rfl, rfl⟩ := Prod.mk.inj (Option.some.inj h)
        simp [RunningCall.mapWrite, hdown, writeMap]
      | false =>
        simp only [hdown, if_true] at h
        obtain ⟨rfl, rfl⟩ := Prod.mk.inj (Option.some.inj h)
        simp [RunningCall.mapWrite, hdown, writeMap, MapWrite.apply]
  | returned added => cases h
  | thrown => cases h

omit [DecidableEq κ] in
theorem map_of_removeScanner {p p' : RemoveScannerPoint S}
    (h : m.removeScanner i s p = some (m', p')) :
    m'.schedule.scheduledScanners =
      writeMap ((RunningCall.removeScanner s p).mapWrite m) m.schedule.scheduledScanners := by
  cases p with
  | entry =>
    obtain ⟨-, h⟩ := Option.ite_none_right_eq_some.mp h
    rw [RunningCall.mapWrite]
    split at h
    · next hs =>
      obtain ⟨rfl, rfl⟩ := Prod.mk.inj (Option.some.inj h)
      rw [if_pos hs]
      rfl
    · next hs =>
      obtain ⟨rfl, rfl⟩ := Prod.mk.inj (Option.some.inj h)
      rw [if_neg hs]
      rfl
  | removed future =>
    obtain ⟨rfl, rfl⟩ := Prod.mk.inj (Option.some.inj h)
    exact ScannerSchedule.cancelIfNotNull_scheduledScanners
  | cancelled =>
    obtain ⟨rfl, rfl⟩ := Prod.mk.inj (Option.some.inj h)
    rfl
  | returned removed => cases h

theorem map_of_setEnabled {p p' : SetEnabledPoint}
    (h : m.setEnabled i s enabled p = some (m', p')) :
    m'.schedule.scheduledScanners =
      writeMap (p.mapWrite s enabled m) m.schedule.scheduledScanners := by
  cases p with
  | entry =>
    obtain ⟨rfl, rfl⟩ := Prod.mk.inj (Option.some.inj h)
    rfl
  | swapped old =>
    obtain ⟨rfl, rfl⟩ := Prod.mk.inj (Option.some.inj h)
    rfl
  | notifying count =>
    cases count with
    | zero =>
      obtain ⟨rfl, rfl⟩ := Prod.mk.inj (Option.some.inj h)
      rfl
    | succ count =>
      obtain ⟨-, h⟩ := Option.ite_none_right_eq_some.mp h
      cases enabled with
      | false =>
        rw [ScannerSchedule.propertyChange_false] at h
        obtain ⟨rfl, rfl⟩ := Prod.mk.inj (Option.some.inj h)
        exact ScannerSchedule.cancelIfNotNull_scheduledScanners
      | true =>
        cases hdown : m.schedule.isShutdown with
        | false =>
          rw [ScannerSchedule.propertyChange_true hdown] at h
          obtain ⟨rfl, rfl⟩ := Prod.mk.inj (Option.some.inj h)
          simp [SetEnabledPoint.mapWrite, hdown, writeMap, MapWrite.apply]
        | true =>
          simp only [ScannerSchedule.propertyChange, ScannerSchedule.scheduleScanner, hdown,
            if_true] at h
          obtain ⟨rfl, rfl⟩ := Prod.mk.inj (Option.some.inj h)
          simp [SetEnabledPoint.mapWrite, hdown, writeMap]
  | returned => cases h
  | thrown => cases h

theorem map_of_setScanEnabled {order : List S} {p p' : SetScanEnabledPoint S}
    (h : m.setScanEnabled i enabled order p = some (m', p')) :
    m'.schedule.scheduledScanners =
      writeMap ((RunningCall.setScanEnabled enabled p).mapWrite m)
        m.schedule.scheduledScanners := by
  cases p with
  | entry =>
    obtain ⟨-, h⟩ := Option.ite_none_right_eq_some.mp h
    obtain ⟨-, rfl, rfl⟩ := map_enter_eq_some h
    rfl
  | iterating rest modCount =>
    cases rest with
    | nil =>
      obtain ⟨rfl, rfl⟩ := Prod.mk.inj (Option.some.inj h)
      rfl
    | cons s rest =>
      simp only [SharedSchedule.setScanEnabled] at h
      split at h <;> obtain ⟨rfl, rfl⟩ := Prod.mk.inj (Option.some.inj h) <;> rfl
  | setting s p rest modCount =>
    cases p with
    | returned =>
      obtain ⟨rfl, rfl⟩ := Prod.mk.inj (Option.some.inj h)
      rfl
    | thrown =>
      obtain ⟨rfl, rfl⟩ := Prod.mk.inj (Option.some.inj h)
      rfl
    | _ =>
      simp only [SharedSchedule.setScanEnabled] at h
      obtain ⟨⟨m₁, p₁⟩, hp, h⟩ := Option.map_eq_some_iff.mp h
      obtain ⟨rfl, rfl⟩ := Prod.mk.inj h
      exact map_of_setEnabled hp
  | returned => cases h
  | thrown => cases h

/-- **Everything a step does to the map of scanners** is the write it is said to make. -/
theorem map_of_next {order : List S} {k k' : RunningCall S} (h : k.next i order m = some (m', k')) :
    m'.schedule.scheduledScanners = writeMap (k.mapWrite m) m.schedule.scheduledScanners := by
  cases k <;> obtain ⟨⟨m₁, p₁⟩, hp, h⟩ := Option.map_eq_some_iff.mp h <;>
    obtain ⟨rfl, rfl⟩ := Prod.mk.inj h
  case addScanner => exact map_of_addScanner hp
  case removeScanner => exact map_of_removeScanner hp
  case setEnabled => exact map_of_setEnabled hp
  case setScanEnabled => exact map_of_setScanEnabled hp

end Steps

/-! ### Runs -/

section Runs

variable {S κ ω ι J V E : Type}

/-- A network: the calls on its scanners, and its jobs. -/
abbrev WorkerNetworkConfig (κ S ω ι J V E : Type) :=
  ScannerConfig κ S × NetworkConfig ω ι J V E

/-- The hash codes of the network and of all its workers. -/
def Hashes.all (H : Hashes S ω ι) (c : WorkerNetworkConfig κ S ω ι J V E) :
    Int32 × (ω → Int32) :=
  (H.network c.1.shared.schedule c.2.network, H.worker c.1.shared.schedule c.2.network)

theorem Hashes.all_eq_iff {H : Hashes S ω ι} {c c' : WorkerNetworkConfig κ S ω ι J V E} :
    H.all c' = H.all c ↔
      H.scheduledScanners c'.1.shared.schedule.scheduledScanners =
        H.scheduledScanners c.1.shared.schedule.scheduledScanners := by
  have hnetwork : H.network c'.1.shared.schedule c'.2.network =
      H.network c.1.shared.schedule c.2.network ↔ _ := H.network_eq_iff
  rw [← hnetwork, all, all, Prod.mk.injEq]
  constructor
  · exact And.left
  · intro h
    exact ⟨h, funext fun w => Hashes.worker_eq_iff.mpr h⟩

/-- A step that writes nothing to the map of scanners, or an entry with the hash code of the one
that was there. -/
def KeepsEntries [DecidableEq S] (H : Hashes S ω ι) (c : WorkerNetworkConfig κ S ω ι J V E) :
    (κ × List S) ⊕ NetworkAction ω ι V E → Prop
  | .inl (i, _) =>
    match c.1.thread i with
    | .ready _ => True
    | .running k => ((k.mapWrite c.1.shared).all fun w =>
        w.after H = w.before H c.1.shared.schedule.scheduledScanners) = true
  | .inr _ => True

instance [DecidableEq S] (H : Hashes S ω ι) (c : WorkerNetworkConfig κ S ω ι J V E)
    (a : (κ × List S) ⊕ NetworkAction ω ι V E) : Decidable (KeepsEntries H c a) := by
  unfold KeepsEntries
  split
  · split <;> infer_instance
  · infer_instance

variable [DecidableEq S] [DecidableEq κ] [DecidableEq ω] [DecidableEq ι] [DecidableEq J]
  [DecidableEq V] [DecidableEq E]

/-- Calls of `addScanner`, `removeScanner`, `setEnabled` and `setScanEnabled` by any number of
threads, and submissions, completions, cancellations and everything else that happens to jobs, on
a network whose scanners are at first as `n` says. -/
def workerNetworkMachine (κ ω ι J V E : Type) [DecidableEq κ] [DecidableEq ω] [DecidableEq ι]
    [DecidableEq J] [DecidableEq V] [DecidableEq E] (n : ScannerSchedule S) :
    Machine (WorkerNetworkConfig κ S ω ι J V E) ((κ × List S) ⊕ NetworkAction ω ι V E) :=
  (sharedMachine κ n).par (jobMachine ω ι J V E)

variable {H : Hashes S ω ι} {n : ScannerSchedule S} {c c' : WorkerNetworkConfig κ S ω ι J V E}

/-- **A step keeps the hash codes exactly if it keeps the entries.** -/
theorem Hashes.all_step_eq_iff (a : (κ × List S) ⊕ NetworkAction ω ι V E)
    (h : (workerNetworkMachine κ ω ι J V E n).step c a = some c') :
    H.all c' = H.all c ↔ KeepsEntries H c a := by
  rw [H.all_eq_iff]
  cases a with
  | inr b =>
    obtain ⟨t, -, rfl⟩ := Option.map_eq_some_iff.mp h
    exact iff_of_true rfl trivial
  | inl a =>
    obtain ⟨i, order⟩ := a
    obtain ⟨t, ht, rfl⟩ := Option.map_eq_some_iff.mp h
    rw [KeepsEntries]
    obtain ⟨o, ho, rfl⟩ | ⟨k, m', k', hk, hn, rfl⟩ := Interleaving.step_cases ht
    · rw [ho]
      exact iff_of_true rfl trivial
    · rw [hk]
      show H.scheduledScanners m'.schedule.scheduledScanners = _ ↔
        ((k.mapWrite c.1.shared).all fun w =>
          w.after H = w.before H c.1.shared.schedule.scheduledScanners) = true
      rw [map_of_next hn]
      cases k.mapWrite c.1.shared with
      | none => exact iff_of_true rfl rfl
      | some w => simp [writeMap, w.scheduledScanners_apply_eq_iff]

/-- The hash codes of the network and of all workers are the same after each of a list of steps. -/
def HashCodesStable (H : Hashes S ω ι) (n : ScannerSchedule S)
    (c : WorkerNetworkConfig κ S ω ι J V E)
    (steps : List ((κ × List S) ⊕ NetworkAction ω ι V E)) : Prop :=
  ∀ done t, done <+: steps → (workerNetworkMachine κ ω ι J V E n).exec c done = some t →
    H.all t = H.all c

/-- **When the hash codes are stable.** The hash codes of the network and of all workers are the
same after each of a list of steps, exactly if no step writes an entry to the map of scanners with
another hash code than the one that was there. -/
theorem hashCodes_stable_iff (H : Hashes S ω ι) (n : ScannerSchedule S)
    (c : WorkerNetworkConfig κ S ω ι J V E)
    (steps : List ((κ × List S) ⊕ NetworkAction ω ι V E))
    (h : ((workerNetworkMachine κ ω ι J V E n).exec c steps).isSome = true) :
    HashCodesStable H n c steps ↔
      ((workerNetworkMachine κ ω ι J V E n).execOf (KeepsEntries H) c steps).isSome = true :=
  Machine.forall_eq_iff_execOf (fun _ a _ => H.all_step_eq_iff a) h

end Runs

/-! ### A scanner is added -/

section Example

/-- Every object has a number of its own. -/
def numberedHashes : Hashes Nat Unit Nat where
  identity := 1000
  applicationName := 1001
  scanner s := .ofNat s
  scheduledFuture future := .ofNat (2000 + future.id)
  callbackAddress := 1002
  jobId id := .ofNat (3000 + id)
  callbackServer := 1003
  workerManager := 1004
  callbackServerFactory := 1005
  workerAddress _ := 1006
  proxy _ := 1007

/-- A network as its constructor leaves it: of its four scanners, the status scanner is enabled. -/
def constructed : ScannerSchedule Nat := .new (· = 3) 0 1 2 3

/-- A fifth scanner, which is disabled, is to be added to a new network; a job is to be submitted,
and its future cancelled. -/
def addAndSubmit : WorkerNetworkConfig Unit Nat Unit Nat Unit Unit Unit where
  fst.shared := ⟨constructed, none, []⟩
  fst.thread _ := .ready (.addScanner 4)
  snd.launcher.shared := .new
  snd.launcher.thread i := .ready (if i = 0 then .submit () () else .cancel 0)
  snd.workers _ := ⟨.new, fun _ => .ready .shutdown⟩

/-- While the job is submitted and its future cancelled, the hash codes stay the same. -/
theorem hashCodes_stable_submitted :
    HashCodesStable numberedHashes constructed addAndSubmit
      (List.replicate 4 (.inr (.launcher 0 .go)) ++ List.replicate 2 (.inr (.launcher 1 .go))) :=
  (hashCodes_stable_iff numberedHashes _ addAndSubmit _ (by decide)).mpr (by decide)

/-- **A scanner that is added** changes the hash codes of the network and of its worker. -/
theorem exists_hashCodes_changed :
    ∃ t, (workerNetworkMachine Unit Unit Nat Unit Unit Unit constructed).Run addAndSubmit t ∧
      numberedHashes.network t.1.shared.schedule t.2.network ≠
        numberedHashes.network addAndSubmit.1.shared.schedule addAndSubmit.2.network ∧
      numberedHashes.worker t.1.shared.schedule t.2.network () ≠
        numberedHashes.worker addAndSubmit.1.shared.schedule addAndSubmit.2.network () := by
  obtain ⟨t, ht, hne⟩ := Machine.exists_run_of_exec (workerNetworkMachine Unit Unit Nat Unit Unit
    Unit constructed) addAndSubmit (List.replicate 5 (.inl ((), [])))
    (fun t => numberedHashes.network t.1.shared.schedule t.2.network ≠
        numberedHashes.network addAndSubmit.1.shared.schedule addAndSubmit.2.network ∧
      numberedHashes.worker t.1.shared.schedule t.2.network () ≠
        numberedHashes.worker addAndSubmit.1.shared.schedule addAndSubmit.2.network ()) (by decide)
  exact ⟨t, ht, of_decide_eq_true hne⟩

end Example

end Shabdiz
