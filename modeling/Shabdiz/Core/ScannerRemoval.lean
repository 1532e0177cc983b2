import Shabdiz.Concurrency.History
import Shabdiz.Core.ScannerCalls
import Shabdiz.Core.SharedSchedule

/-!
# Removing a scanner while it is being enabled

`removeScanner` takes the scanner out of the map inside the monitor, and removes the listener later,
outside. In between the listener can be told that the scanner has been enabled, and puts it back:
the scanner goes on scanning after `removeScanner` has returned `true`.

## Main definitions

* `Owned`, `HoldsOwn` — whose futures are where, at any point of overlapping calls
* `Reinserts` — the step that puts a removed scanner back

## Main results

* `owned_of_reachable` — the stored futures, and those in a remover's hands, are the scanner's own
* `exists_live_afterRemoval` — a removed scanner can be left in the map with a live task
* `not_live_of_removed` — and only by `Reinserts`
-/

namespace Shabdiz

variable {ι S : Type} [DecidableEq ι] [DecidableEq S] {n : ScannerSchedule S}
  {c c' : ScannerConfig ι S} {P : ScannerConfig ι S → ι × List S → Prop}

/-! ### Whose futures -/

/-- The scheduler runs, the stored futures are those of their scanners, and a scanner that is not
in the map has none. -/
structure Owned (n : ScannerSchedule S) : Prop where
  isShutdown : n.isShutdown = false
  own : ∀ s f, n.scheduledScanners.get s = some f → f.scanner = s ∧ f.id < n.nextId
  get_none : ∀ s, s ∉ n.scheduledScanners.keys → n.scheduledScanners.get s = none

/-- What a call counts on: the scanner it is adding is not in the map, and the future it is going
to cancel is one of the scanner it has removed. -/
def HoldsOwn (n : ScannerSchedule S) (v : ScannerView S) : Prop :=
  match v.stage with
  | .adding s => v.inside = true ∧ s ∉ n.scheduledScanners.keys
  | .removed s future => ∀ f, future = some f → f.scanner = s
  | _ => True

theorem ScannerSchedule.Inv.owned (h : n.Inv) : Owned n where
  isShutdown := h.isShutdown
  own s := (h.inStep s).own
  get_none s := (h.inStep s).get_none

section Effects

variable {i : ι} {m m' : SharedSchedule ι S} {v v' : ScannerView S}

omit [DecidableEq ι] in
/-- The keys grow only inside the monitor. -/
theorem ScannerEffect.monitor_of_keys_ne (h : ScannerEffect i m v m' v') {s : S}
    (hs : ¬ (s ∈ m'.schedule.scheduledScanners.keys → s ∈ m.schedule.scheduledScanners.keys)) :
    v.inside = true ∨ m.monitor = none ∨ m.monitor = some i := by
  cases h with
  | addScheduled | add => exact Or.inl rfl
  | reschedule hm => exact Or.inr hm
  | remove => simp at hs
  | _ => simp at hs

omit [DecidableEq S] in
/-- A write that leaves the map and the scheduler as they are. -/
theorem Owned.congr {n n' : ScannerSchedule S} (h : Owned n)
    (hshut : n'.isShutdown = n.isShutdown) (hmap : n'.scheduledScanners = n.scheduledScanners)
    (hnext : n.nextId ≤ n'.nextId) : Owned n' := by
  refine ⟨hshut.trans h.isShutdown, fun s f hf => ?_, fun s hs => ?_⟩
  · rw [hmap] at hf
    exact ⟨(h.own s f hf).1, (h.own s f hf).2.trans_le hnext⟩
  · rw [hmap] at hs ⊢
    exact h.get_none s hs

theorem Owned.put (h : Owned n) {s : S} {future : Option (ScheduledFuture S)}
    (hfuture : ∀ f, future = some f → f.scanner = s ∧ f.id < n.nextId) :
    Owned (n.put s future) := by
  refine ⟨h.isShutdown, fun t f hf => ?_, fun t ht => ?_⟩
  · by_cases hts : t = s
    · subst hts
      exact hfuture f (by simpa using hf)
    · exact h.own t f (by simpa [hts] using hf)
  · simp only [ScannerSchedule.put_scheduledScanners, ScheduledScanners.put_keys,
      Finset.mem_insert, not_or] at ht
    simpa [ht.1] using h.get_none t ht.2

theorem Owned.remove (h : Owned n) (s : S) : Owned (n.remove s) := by
  refine ⟨h.isShutdown, fun t f hf => ?_, fun t ht => ?_⟩
  · by_cases hts : t = s
    · simp [hts] at hf
    · exact h.own t f (by simpa [hts] using hf)
  · by_cases hts : t = s
    · simp [hts]
    · simpa [hts] using h.get_none t (by simpa [hts] using ht)

theorem Owned.schedule_put (h : Owned n) (s : S) :
    Owned ((n.schedule s).put s (some ⟨s, n.nextId⟩)) := by
  refine Owned.put (n := n.schedule s) (h.congr rfl rfl (Nat.le_succ _)) fun f hf => ?_
  obtain rfl := Option.some.inj hf
  exact ⟨rfl, Nat.lt_succ_self _⟩

theorem Owned.cancelIfNotNull (h : Owned n) (future : Option (ScheduledFuture S)) :
    Owned (n.cancelIfNotNull future) :=
  h.congr (by simp) (by simp) (by simp)

omit [DecidableEq ι] in
theorem Owned.of_effect (hm : Owned m.schedule) (h : ScannerEffect i m v m' v') :
    Owned m'.schedule := by
  cases h with
  | register => exact hm.congr rfl rfl le_rfl
  | addScheduled => exact hm.schedule_put _
  | add => exact hm.put (by simp)
  | remove => exact hm.remove _
  | cancel => exact hm.cancelIfNotNull _
  | unregister => exact hm.congr rfl rfl le_rfl
  | swap => exact hm.congr rfl rfl le_rfl
  | reschedule => exact (hm.schedule_put _).cancelIfNotNull _
  | unschedule => exact hm.cancelIfNotNull _
  | _ => exact hm

end Effects

/-- The stored futures, and those in a remover's hands, are the scanner's own, and a scanner that is
being added is not in the map. -/
theorem owned_of_reachable (hn : n.Inv) (h : (sharedMachine ι n).ReachableOf P c) :
    Owned c.shared.schedule ∧ ∀ i, HoldsOwn c.shared.schedule (scannerView (c.thread i)) := by
  refine scanner_invariant (G := fun m => Owned m.schedule)
    (A := fun _ m v => HoldsOwn m.schedule v) h ⟨hn.owned, fun _ => trivial⟩ ?_ ?_
  · intro c i order m' v v' _ hG hA _ hv heff
    have hi := hA i
    rw [hv] at hi
    refine ⟨hG.of_effect heff, ?_⟩
    cases heff with
    | register hs => exact ⟨rfl, hs⟩
    | remove => exact fun f hf => (hG.own _ f hf).1
    | readFlag => exact hi
    | _ => trivial
  · intro c i order m' v v' j hr hG hA _ hv heff hj
    have hj' := hA j
    revert hj'
    unfold HoldsOwn
    split
    · rename_i s hs
      rintro ⟨hin, hnot⟩
      refine ⟨hin, fun hmem => ?_⟩
      -- the acting call would be inside the monitor together with `j`
      have hmon := scannerMonitor_eq_of_inside hr j hin
      obtain hi | hi | hi := heff.monitor_of_keys_ne fun himp => hnot (himp hmem)
      · rw [← hv] at hi
        rw [scannerMonitor_eq_of_inside hr i hi] at hmon
        exact hj (Option.some.inj hmon).symm
      · rw [hi] at hmon
        cases hmon
      · rw [hi] at hmon
        exact hj (Option.some.inj hmon).symm
    · exact id
    · exact id

/-! ### What has been removed -/

/-- Every call that has begun is over. -/
def Settled (c : ScannerConfig ι S) : Prop :=
  ∀ i k, c.thread i = .running k → k.isOver = true

/-- Whether the next step of the call notifies the listener that `s` is now `enabled`. -/
def ScannerStage.notifies (s : S) (enabled : Bool) : ScannerStage S → Bool
  | notifying t e (_ + 1) => t = s && e = enabled
  | _ => false

/-- Call `i` is about to notify the listener that `s` has been enabled, and `s` is not in the
map. -/
def Reinserts (s : S) (c : ScannerConfig ι S) (i : ι) : Prop :=
  (scannerView (c.thread i)).stage.notifies s true = true ∧
    s ∉ c.shared.schedule.scheduledScanners.keys

instance (s : S) (c : ScannerConfig ι S) (i : ι) : Decidable (Reinserts s c i) :=
  inferInstanceAs (Decidable (_ ∧ _))

/-- Whether `removeScanner` has found the scanner and taken it out of the map. -/
def RemoveScannerPoint.hasRemoved : RemoveScannerPoint S → Bool
  | entry => false
  | .removed _ => true
  | cancelled => true
  | returned b => b

omit [DecidableEq ι] in
/-- A step after which the scanner is out of the map has taken it out, or found it so. -/
theorem hasRemoved_of_removeScanner {i : ι} {s : S} {m m' : SharedSchedule ι S}
    {p p' : RemoveScannerPoint S} (h : m.removeScanner i s p = some (m', p'))
    (hp' : p'.hasRemoved = true) : p.hasRemoved = true ∨ .removed i s ∈ m'.log := by
  cases p with
  | entry =>
    obtain ⟨-, h⟩ := Option.ite_none_right_eq_some.mp h
    split at h
    · obtain ⟨rfl, rfl⟩ := Prod.mk.inj (Option.some.inj h)
      exact Or.inr (by simp)
    · obtain ⟨rfl, rfl⟩ := Prod.mk.inj (Option.some.inj h)
      cases hp'
  | returned b => cases h
  | _ => exact Or.inl rfl

/-- A removal is in the history. -/
theorem removed_mem_log (h : (sharedMachine ι n).ReachableOf P c) {i : ι} {s : S}
    {p : RemoveScannerPoint S} (hi : c.thread i = .running (.removeScanner s p))
    (hp : p.hasRemoved = true) : .removed i s ∈ c.shared.log := by
  refine (Interleaving.owickiGries_next (G := fun _ => True) (J := fun i m t =>
    ∀ s p, t = .running (.removeScanner s p) → p.hasRemoved = true → .removed i s ∈ m.log)
    h ⟨trivial, ?_⟩ ?_ ?_ ?_).2 i s p hi hp
  · intro i o s p ht
    cases ht
  · intro c i order o _ _ _ ho s p ht hp
    cases o <;> obtain ⟨⟩ := ht
    cases hp
  · intro c i order k m' k' _ hc _ hk hnext
    refine ⟨trivial, fun s p ht hp => ?_⟩
    obtain rfl := Thread.running.inj ht
    have hop := RunningCall.operation_next hnext
    cases k with
    | removeScanner t q =>
      obtain ⟨⟨m₁, q'⟩, hq, heq⟩ := Option.map_eq_some_iff.mp hnext
      obtain ⟨rfl, rfl, rfl⟩ : m₁ = m' ∧ t = s ∧ q' = p := by simpa using heq
      obtain hq' | hmem := hasRemoved_of_removeScanner hq hp
      · exact (effect_of_removeScanner hq).mem_log (hc.2 i t q hk hq')
      · exact hmem
    | _ => cases hop
  · intro c i order k m' k' j _ hc _ hk hnext hj s p ht hp
    exact (effect_of_next hnext).mem_log (hc.2 j s p ht hp)

/-- As long as no listener puts `s` back, a removed scanner is in the map only if it has been added
again. -/
theorem added_of_mem_keys {s : S}
    (h : (sharedMachine ι n).ReachableOf (fun c a => ¬ Reinserts s c a.1) c)
    (hs : s ∈ c.shared.schedule.scheduledScanners.keys) {i : ι}
    (hi : .removed i s ∈ c.shared.log) :
    ∃ j, InOrder [.removed i s, .added j s] c.shared.log := by
  refine (scanner_invariant (G := fun m => s ∈ m.schedule.scheduledScanners.keys →
    ∀ i, .removed i s ∈ m.log → ∃ j, InOrder [.removed i s, .added j s] m.log)
    (A := fun _ _ _ => True) h ?_ ?_ fun _ _ _ _ _ _ _ _ _ _ _ _ _ _ => trivial).1 hs i hi
  · exact ⟨fun _ i hi => (List.not_mem_nil hi).elim, fun _ => trivial⟩
  · intro c i order m' v v' _ hG _ hP hv heff
    refine ⟨?_, trivial⟩
    -- `add` of any scanner `t`
    have hadd : ∀ t, (s ≠ t → s ∈ c.shared.schedule.scheduledScanners.keys) →
        ∀ j, .removed j s ∈ c.shared.log ++ [.added i t] →
        ∃ k, InOrder [.removed j s, .added k s] (c.shared.log ++ [.added i t]) := by
      intro t hkey j hj
      have hj : .removed j s ∈ c.shared.log := by simpa using hj
      by_cases hst : s = t
      · exact ⟨i, inOrder_pair_concat.mpr (Or.inr ⟨hj, by rw [hst]⟩)⟩
      · obtain ⟨k, hk⟩ := hG (hkey hst) j hj
        exact ⟨k, hk.append _⟩
    cases heff with
    | addScheduled | add =>
      intro hs'
      refine hadd _ fun hst => ?_
      simpa [hst] using hs'
    | @remove t =>
      intro hs' j hj
      obtain ⟨hst, hs'⟩ : s ≠ t ∧ s ∈ c.shared.schedule.scheduledScanners.keys := by
        simpa using hs'
      have hj : .removed j s ∈ c.shared.log := by simpa [hst] using hj
      obtain ⟨k, hk⟩ := hG hs' j hj
      exact ⟨k, hk.append _⟩
    | @reschedule b t count =>
      intro hs'
      by_cases hst : s = t
      · subst hst
        have hkey : s ∈ c.shared.schedule.scheduledScanners.keys := by
          by_contra hnot
          exact hP ⟨by simp [hv, ScannerStage.notifies], hnot⟩
        exact hG hkey
      · have hkey : s ∈ c.shared.schedule.scheduledScanners.keys := by simpa [hst] using hs'
        exact hG hkey
    | _ => simpa using hG

/-- Where the live tasks of `s` are: in the map, or in the hands of a call that is removing `s`. -/
def LiveAccounted (s : S) (c : ScannerConfig ι S) : Prop :=
  ∀ f ∈ c.shared.schedule.live, f.scanner = s →
    c.shared.schedule.scheduledScanners.get s = some f ∨
      ∃ j, (scannerView (c.thread j)).stage = .removed s (some f)

omit [DecidableEq ι] in
/-- Where a live task is after a step: in the map, in the hands of the acting call, or, if it was
in neither before, where it was. -/
theorem ScannerEffect.live_cases {i : ι} {m m' : SharedSchedule ι S} {v v' : ScannerView S}
    (h : ScannerEffect i m v m' v') (hm : Owned m.schedule) (hv : HoldsOwn m.schedule v)
    {f : ScheduledFuture S} (hf : f ∈ m'.schedule.live) :
    m'.schedule.scheduledScanners.get f.scanner = some f ∨
      v'.stage = .removed f.scanner (some f) ∨
      (f ∈ m.schedule.live ∧ m.schedule.scheduledScanners.get f.scanner ≠ some f ∧
        v.stage ≠ .removed f.scanner (some f)) := by
  have hrest : f ∈ m.schedule.live → v.stage ≠ .removed f.scanner (some f) →
      (m.schedule.scheduledScanners.get f.scanner = some f →
        m'.schedule.scheduledScanners.get f.scanner = some f ∨
          v'.stage = .removed f.scanner (some f)) →
      m'.schedule.scheduledScanners.get f.scanner = some f ∨
        v'.stage = .removed f.scanner (some f) ∨
        (f ∈ m.schedule.live ∧ m.schedule.scheduledScanners.get f.scanner ≠ some f ∧
          v.stage ≠ .removed f.scanner (some f)) := by
    intro hlive hstage hkeep
    by_cases hget : m.schedule.scheduledScanners.get f.scanner = some f
    · exact (hkeep hget).imp_right Or.inl
    · exact Or.inr (Or.inr ⟨hlive, hget, hstage⟩)
  cases h with
  | @addScheduled t hopen =>
    by_cases hft : f.scanner = t
    · subst hft
      have hnone := hm.get_none _ hv.2
      obtain hf | hf : f = ⟨f.scanner, m.schedule.nextId⟩ ∨ f ∈ m.schedule.live := by simpa using hf
      · exact Or.inl (by simpa using hf.symm)
      · exact hrest hf (by simp) (by simp [hnone])
    · have hne : f ≠ ⟨t, m.schedule.nextId⟩ := fun heq => hft (congrArg _ heq)
      have hf : f ∈ m.schedule.live := by simpa [hne] using hf
      exact hrest hf (by simp) fun hget => Or.inl (by simpa [hft] using hget)
  | @add t =>
    by_cases hft : f.scanner = t
    · subst hft
      have hnone := hm.get_none _ hv.2
      exact hrest hf (by simp) (by simp [hnone])
    · exact hrest hf (by simp) fun hget => Or.inl (by simpa [hft] using hget)
  | @remove t _ _ =>
    refine hrest hf (by simp) fun hget => ?_
    by_cases hft : f.scanner = t
    · subst hft
      exact Or.inr (by rw [hget])
    · exact Or.inl (by simpa [hft] using hget)
  | @cancel t future =>
    obtain ⟨hf, hne⟩ : f ∈ m.schedule.live ∧ future ≠ some f := by simpa using hf
    refine hrest hf (fun hstage => ?_) fun hget => Or.inl (by simpa using hget)
    exact hne (ScannerStage.removed.inj hstage).2
  | @reschedule b t count _ hopen =>
    obtain ⟨hf, hold⟩ : (f = ⟨t, m.schedule.nextId⟩ ∨ f ∈ m.schedule.live) ∧
        m.schedule.scheduledScanners.get t ≠ some f := by simpa using hf
    obtain rfl | hf := hf
    · exact Or.inl (by simp)
    · refine hrest hf (by simp) fun hget => Or.inl ?_
      by_cases hft : f.scanner = t
      · exact absurd (hft ▸ hget) hold
      · simpa [hft] using hget
  | @unschedule b t count _ =>
    obtain ⟨hf, -⟩ : f ∈ m.schedule.live ∧ m.schedule.scheduledScanners.get t ≠ some f := by
      simpa using hf
    exact hrest hf (by simp) fun hget => Or.inl (by simpa using hget)
  | _ => exact hrest hf (by simp) Or.inl

theorem liveAccounted_of_reachable (hn : n.Inv) (s : S) (h : (sharedMachine ι n).ReachableOf P c) :
    LiveAccounted s c := by
  refine h.invariant ?_ ?_
  · rintro c ⟨hs, -⟩ f hf hfs
    rw [hs] at hf ⊢
    exact Or.inl (((hn.inStep s).mem_live f hfs).mp hf).2.2
  · rintro c ⟨i, order⟩ c' hr hc - hstep f hf rfl
    obtain ⟨hown, hheld⟩ := owned_of_reachable hn hr
    obtain hget | hstage | ⟨hlive, hget, hstage⟩ :=
      (effect_of_scannerStep hstep).live_cases hown (hheld i) hf
    · exact Or.inl hget
    · exact Or.inr ⟨i, hstage⟩
    · -- another call holds it, and goes on holding it
      obtain ⟨j, hj⟩ := (hc f hlive rfl).resolve_left hget
      have hji : j ≠ i := by
        rintro rfl
        exact hstage hj
      exact Or.inr ⟨j, by rw [Interleaving.thread_step_of_ne hstep hji]; exact hj⟩

omit [DecidableEq ι] [DecidableEq S] in
theorem RunningCall.stage_of_isOver {k : RunningCall S} (h : k.isOver = true) :
    k.view.stage = .idle := by
  cases k with
  | addScanner s p => cases p <;> first | rfl | cases h
  | removeScanner s p => cases p <;> first | rfl | cases h
  | setEnabled s enabled p => cases p <;> first | rfl | cases h
  | setScanEnabled enabled p => cases p <;> first | rfl | cases h

omit [DecidableEq ι] [DecidableEq S] in
theorem Settled.stage_eq (h : Settled c) (i : ι) : (scannerView (c.thread i)).stage = .idle := by
  cases hi : c.thread i with
  | ready o => rfl
  | running k => exact RunningCall.stage_of_isOver (h i k hi)

variable {autoKill autoDeploy autoRemove status : S}

/-- **Only `Reinserts` undoes a removal.** When no listener puts `s` back, `removeScanner(s)` has
returned `true`, nobody has added `s` since, and all calls are over, then `s` is not in the map and
has no live task. The calls may begin after any sequence of calls. -/
theorem not_live_of_removed
    (hn : (scannerMachine autoKill autoDeploy autoRemove status).ReachableOf BeforeShutdown n)
    {s : S} (h : (sharedMachine ι n).ReachableOf (fun c a => ¬ Reinserts s c a.1) c)
    (hsettled : Settled c) {i : ι}
    (hi : c.thread i = .running (.removeScanner s (.returned true)))
    (hlast : ∀ j, ¬ InOrder [.removed i s, .added j s] c.shared.log) :
    s ∉ c.shared.schedule.scheduledScanners.keys ∧ c.shared.schedule.liveTasks s = ∅ := by
  have hinv := inv_of_reachable hn
  have hs : s ∉ c.shared.schedule.scheduledScanners.keys := by
    intro hs
    obtain ⟨j, hj⟩ := added_of_mem_keys h hs (removed_mem_log h hi rfl)
    exact hlast j hj
  refine ⟨hs, Finset.eq_empty_of_forall_notMem fun f hf => ?_⟩
  obtain ⟨hlive, hfs⟩ := Finset.mem_filter.mp hf
  have hnone := (owned_of_reachable hinv h).1.get_none s hs
  obtain hget | ⟨j, hj⟩ := liveAccounted_of_reachable hinv s h f hlive hfs
  · rw [hnone] at hget
    cases hget
  · rw [hsettled.stage_eq j] at hj
    cases hj

/-- The step that puts a scanner back leaves it in the map, whatever the other calls have done. -/
theorem mem_keys_of_reinserts {s : S} {i : ι} {order : List S} (hc : Owned c.shared.schedule)
    (h : Reinserts s c i) (hstep : (sharedMachine ι n).step c (i, order) = some c') :
    s ∈ c'.shared.schedule.scheduledScanners.keys := by
  have heff := effect_of_scannerStep hstep
  obtain ⟨hnotifies, -⟩ := h
  generalize scannerView (c.thread i) = v at heff hnotifies
  generalize scannerView (c'.thread i) = v' at heff
  generalize c'.shared = m' at heff ⊢
  cases heff with
  | @reschedule b t count =>
    obtain rfl : t = s := by simpa [ScannerStage.notifies] using hnotifies
    simp
  | reject hdown =>
    rw [hc.isShutdown] at hdown
    cases hdown
  | _ => simp [ScannerStage.notifies] at hnotifies

/-! ### A scanner that goes on scanning -/

section Example

/-- A network with its default scanners `0` to `3`, all disabled. -/
def disabledScanners : ScannerSchedule Nat := .new (fun _ => false) 0 1 2 3

theorem disabledScanners_reachable :
    (scannerMachine 0 1 2 3).ReachableOf BeforeShutdown disabledScanners :=
  ⟨_, ⟨_, rfl⟩, Machine.RunOf.refl⟩

/-- Call `false` removes scanner `0`, and call `true` enables it. -/
def removerAndEnabler : ScannerConfig Bool Nat where
  shared := ⟨disabledScanners, none, []⟩
  thread i := .ready (if i then .setEnabled 0 true else .removeScanner 0)

theorem removerAndEnabler_init :
    (sharedMachine Bool disabledScanners).init removerAndEnabler :=
  ⟨rfl, fun _ => ⟨_, rfl⟩⟩

/-- Both calls are over, and nobody has added a scanner. -/
def RemoverAndEnablerDone (c : ScannerConfig Bool Nat) : Prop :=
  c.thread false = .running (.removeScanner 0 (.returned true)) ∧
    c.thread true = .running (.setEnabled 0 true .returned) ∧
    c.shared.log = [.removed false 0]

instance (c : ScannerConfig Bool Nat) : Decidable (RemoverAndEnablerDone c) :=
  inferInstanceAs (Decidable (_ ∧ _ ∧ _))

theorem RemoverAndEnablerDone.settled {c : ScannerConfig Bool Nat}
    (h : RemoverAndEnablerDone c) : Settled c := by
  obtain ⟨hf, ht, -⟩ := h
  intro i k hk
  cases i with
  | false =>
    rw [hf] at hk
    obtain rfl := Thread.running.inj hk
    rfl
  | true =>
    rw [ht] at hk
    obtain rfl := Thread.running.inj hk
    rfl

theorem RemoverAndEnablerDone.not_inOrder {c : ScannerConfig Bool Nat}
    (h : RemoverAndEnablerDone c) (j : Bool) :
    ¬ InOrder [.removed false 0, .added j 0] c.shared.log := by
  rw [h.2.2]
  intro hord
  have hmem := hord.mem (e := .added j 0) (by simp)
  simp at hmem

/-- The flag is set and the event fired before the scanner is removed from the map; the listener
runs after that. -/
theorem exists_live_afterRemoval :
    ∃ c, (sharedMachine Bool disabledScanners).Reachable c ∧ Settled c ∧
      c.thread false = .running (.removeScanner 0 (.returned true)) ∧
      (∀ j, ¬ InOrder [.removed false 0, .added j 0] c.shared.log) ∧
      0 ∈ c.shared.schedule.scheduledScanners.keys ∧ (c.shared.schedule.liveTasks 0).card = 1 := by
  obtain ⟨c, hr, hc⟩ := (sharedMachine Bool disabledScanners).exists_run_of_exec removerAndEnabler
    [(false, []), (true, []), (true, []), (true, []), (false, []), (true, []), (true, []),
      (false, []), (false, [])]
    (fun c => RemoverAndEnablerDone c ∧ 0 ∈ c.shared.schedule.scheduledScanners.keys ∧
      (c.shared.schedule.liveTasks 0).card = 1) (by decide)
  obtain ⟨hdone, hkey, hlive⟩ := of_decide_eq_true hc
  exact ⟨c, ⟨_, removerAndEnabler_init, hr⟩, hdone.settled, hdone.1, hdone.not_inOrder, hkey, hlive⟩

/-- The listener runs, and then the scanner is removed. -/
theorem not_live_enabledBeforeRemoval :
    ∃ c, (sharedMachine Bool disabledScanners).Reachable c ∧ RemoverAndEnablerDone c ∧
      0 ∉ c.shared.schedule.scheduledScanners.keys ∧ c.shared.schedule.liveTasks 0 = ∅ := by
  obtain ⟨c, hr, hc⟩ := (sharedMachine Bool disabledScanners).exists_runOf_of_execOf
    (fun c a => ¬ Reinserts 0 c a.1) removerAndEnabler
    [(false, []), (true, []), (true, []), (true, []), (true, []), (true, []), (false, []),
      (false, []), (false, [])] (fun c => RemoverAndEnablerDone c) (by decide)
  have hreach : (sharedMachine Bool disabledScanners).ReachableOf
      (fun c a => ¬ Reinserts 0 c a.1) c := ⟨_, removerAndEnabler_init, hr⟩
  have hdone : RemoverAndEnablerDone c := of_decide_eq_true hc
  exact ⟨c, hreach.reachable, hdone, not_live_of_removed disabledScanners_reachable hreach
    hdone.settled hdone.1 hdone.not_inOrder⟩

end Example

end Shabdiz
