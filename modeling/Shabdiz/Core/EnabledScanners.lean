import Shabdiz.Core.ScannerRemoval

/-!
# Enabling and disabling a scanner concurrently

`setEnabled` swaps the flag in one atomic step and tells the listener in a later one, so two calls
can notify in another order than they swap. The listener does what the last notification says, and
the flag holds what the last swap wrote.

## Main definitions

* `ScannerStage.outstanding` — a change of the flag that the listener has not been told of
* `NotifiesStale` — the last notification outstanding, with a value that the flag no longer has
* `Agrees` — flag, schedule and listener of one scanner, while notifications may be outstanding

## Main results

* `Agrees.step` — a step that is in order keeps the agreement
* `exists_live_disabled` — a disabled scanner can be left with a live task
* `live_iff_enabled` — flag and schedule agree otherwise
-/

namespace Shabdiz

variable {ι S : Type} [DecidableEq ι] [DecidableEq S] {n : ScannerSchedule S}
  {c c' : ScannerConfig ι S} {P : ScannerConfig ι S → ι × List S → Prop}

/-! ### Stages -/

/-- Whether the call has changed the flag of `s` and the listener is yet to be told. -/
def ScannerStage.outstanding (s : S) : ScannerStage S → Bool
  | swapped t old enabled => t = s && old ≠ enabled
  | notifying t _ (_ + 1) => t = s
  | _ => false

/-- Whether the call is in the middle of adding or removing `s`. -/
def ScannerStage.changesMembership (s : S) : ScannerStage S → Bool
  | adding t => t = s
  | removed t _ => t = s
  | unregistering t => t = s
  | _ => false

/-- Whether an operation adds or removes `s`. -/
def ScannerOperation.changesMembership (s : S) : ScannerOperation S → Bool
  | addScanner t => t = s
  | removeScanner t => t = s
  | _ => false

/-- Whether an operation can set the flag of `s`. -/
def ScannerOperation.setsFlag (s : S) : ScannerOperation S → Bool
  | setEnabled t _ => t = s
  | setScanEnabled _ => true
  | _ => false

theorem RunningCall.operation_changesMembership {k : RunningCall S} {s : S}
    (h : k.view.stage.changesMembership s = true) : k.operation.changesMembership s = true := by
  cases k with
  | addScanner t p => cases p <;> first | exact h | cases h
  | removeScanner t p => cases p <;> first | exact h | cases h
  | setEnabled t enabled p => cases p <;> cases h
  | setScanEnabled enabled p =>
    rcases p with _ | _ | ⟨_, _ | _ | _ | _ | _, _, _⟩ | _ | _ <;> cases h

/-- Only a call in flight that sets the flag of `s` has a notification outstanding. -/
theorem RunningCall.setsFlag_of_outstanding {k : RunningCall S} {s : S}
    (h : k.view.stage.outstanding s = true) :
    k.operation.setsFlag s = true ∧ k.isOver = false := by
  cases k with
  | addScanner t p => cases p <;> cases h
  | removeScanner t p => cases p <;> cases h
  | setEnabled t enabled p =>
    rcases p with _ | _ | (_ | _) | _ | _ <;>
      simp_all [RunningCall.view, SetEnabledPoint.stage, ScannerStage.outstanding,
        RunningCall.operation, ScannerOperation.setsFlag, RunningCall.isOver]
  | setScanEnabled enabled p =>
    rcases p with _ | _ | ⟨_, _ | _ | _ | _ | _, _, _⟩ | _ | _ <;>
      simp_all [RunningCall.view, SetScanEnabledPoint.view, SetEnabledPoint.stage,
        ScannerStage.outstanding, RunningCall.operation, ScannerOperation.setsFlag,
        RunningCall.isOver]

/-! ### Conditions on a step -/

/-- Call `i` adds or removes `s`. -/
def ChangesMembership (n : ScannerSchedule S) (s : S) (c : ScannerConfig ι S) (i : ι) : Prop :=
  ((scannerCalls ι n).opOf (c.thread i)).changesMembership s = true

instance (n : ScannerSchedule S) (s : S) (c : ScannerConfig ι S) (i : ι) :
    Decidable (ChangesMembership n s c i) :=
  inferInstanceAs (Decidable (_ = true))

/-- Call `i` is about to notify the listener of a change of `s`, no other call has one outstanding,
and the flag of `s` has changed since. -/
def NotifiesStale (s : S) (c : ScannerConfig ι S) (i : ι) : Prop :=
  (∃ enabled, (scannerView (c.thread i)).stage.notifies s enabled = true ∧
    c.shared.schedule.enabled s ≠ enabled) ∧
  ∀ j ≠ i, (scannerView (c.thread j)).stage.outstanding s = false

/-- `s` is neither being added nor removed, and no notification is the last and out of date. -/
def InOrderFor (n : ScannerSchedule S) (s : S) (c : ScannerConfig ι S) (a : ι × List S) : Prop :=
  ¬ ChangesMembership n s c a.1 ∧ ¬ NotifiesStale s c a.1

/-! ### What a step does to one scanner -/

/-- Nothing of `s` changes. -/
structure Untouched (s : S) (n n' : ScannerSchedule S) : Prop where
  keys : s ∈ n'.scheduledScanners.keys ↔ s ∈ n.scheduledScanners.keys
  enabledListeners : n'.enabledListeners s = n.enabledListeners s
  enabled : n'.enabled s = n.enabled s
  get : n'.scheduledScanners.get s = n.scheduledScanners.get s
  live : ∀ f : ScheduledFuture S, f.scanner = s → (f ∈ n'.live ↔ f ∈ n.live)

omit [DecidableEq S] in
theorem Untouched.refl {n : ScannerSchedule S} {s : S} : Untouched s n n :=
  ⟨Iff.rfl, rfl, rfl, rfl, fun _ _ => Iff.rfl⟩

omit [DecidableEq S] in
theorem ScannerSchedule.OnlyTouches.untouched {n n' : ScannerSchedule S} {s t : S}
    (h : OnlyTouches t n n') (hst : s ≠ t) : Untouched s n n' :=
  ⟨h.keys s hst, h.enabledListeners s hst, h.enabled s hst, h.get s hst,
    fun f hf => h.live f (hf ▸ hst)⟩

section Effects

variable {i : ι} {m m' : SharedSchedule ι S} {v v' : ScannerView S} {s : S}

omit [DecidableEq ι] in
/-- **What a step can do to `s`**, unless it adds or removes it: nothing, a swap of the flag, or
what the listener does. -/
theorem ScannerEffect.scanner_cases (h : ScannerEffect i m v m' v') (hm : Owned m.schedule)
    (hheld : HoldsOwn m.schedule v) (hv : v.stage.changesMembership s = false)
    (hv' : v'.stage.changesMembership s = false) :
    (Untouched s m.schedule m'.schedule ∧ (m.schedule.enabledListeners s = 1 →
      v'.stage.outstanding s = v.stage.outstanding s)) ∨
    (∃ b enabled, v = ⟨b, .idle⟩ ∧ m' = m.update (·.setFlag s enabled) ∧
      v' = ⟨b, .swapped s (m.schedule.enabled s) enabled⟩) ∨
    (∃ b count, v = ⟨b, .notifying s true (count + 1)⟩ ∧
      m' = m.update (fun n => ((n.schedule s).put s (some ⟨s, n.nextId⟩)).cancelIfNotNull
        (n.scheduledScanners.get s)) ∧ v' = ⟨b, .notifying s true count⟩) ∨
    (∃ b count, v = ⟨b, .notifying s false (count + 1)⟩ ∧
      m' = m.update (fun n => n.cancelIfNotNull (n.scheduledScanners.get s)) ∧
      v' = ⟨b, .notifying s false count⟩) := by
  have hown : ∀ t f, m.schedule.scheduledScanners.get t = some f → f.scanner = t :=
    fun t f hf => (hm.own t f hf).1
  have hne : ∀ {t}, decide (t = s) = false → s ≠ t := fun h heq => of_decide_eq_false h heq.symm
  cases h with
  | register =>
    exact Or.inl ⟨ScannerSchedule.onlyTouches_addEnabledPropertyChangeListener.untouched (hne hv'),
      fun _ => rfl⟩
  | addScheduled =>
    exact Or.inl ⟨(ScannerSchedule.onlyTouches_schedule.trans
      (ScannerSchedule.onlyTouches_put _)).untouched (hne hv), fun _ => rfl⟩
  | add => exact Or.inl ⟨(ScannerSchedule.onlyTouches_put _).untouched (hne hv), fun _ => rfl⟩
  | remove => exact Or.inl ⟨ScannerSchedule.onlyTouches_remove.untouched (hne hv'), fun _ => rfl⟩
  | cancel =>
    exact Or.inl ⟨(ScannerSchedule.onlyTouches_cancelIfNotNull hheld).untouched (hne hv),
      fun _ => rfl⟩
  | unregister =>
    exact Or.inl ⟨ScannerSchedule.onlyTouches_removeEnabledPropertyChangeListener.untouched
      (hne hv), fun _ => rfl⟩
  | @swap b t enabled =>
    by_cases hst : s = t
    · subst hst
      exact Or.inr (Or.inl ⟨b, enabled, rfl, rfl, rfl⟩)
    · refine Or.inl ⟨(ScannerSchedule.onlyTouches_setFlag _).untouched hst, fun _ => ?_⟩
      simp [ScannerStage.outstanding, Ne.symm hst]
  | unchanged => exact Or.inl ⟨Untouched.refl, fun _ => by simp [ScannerStage.outstanding]⟩
  | @fire b t old enabled hchanged =>
    refine Or.inl ⟨Untouched.refl, fun hcount => ?_⟩
    by_cases hst : t = s
    · subst hst
      simp [ScannerStage.outstanding, hcount, hchanged]
    · cases m.schedule.enabledListeners t <;> simp [ScannerStage.outstanding, hst]
  | @reschedule b t count =>
    by_cases hst : s = t
    · subst hst
      exact Or.inr (Or.inr (Or.inl ⟨b, count, rfl, rfl, rfl⟩))
    · refine Or.inl ⟨(ScannerSchedule.onlyTouches_schedule.trans
        ((ScannerSchedule.onlyTouches_put _).trans
          (ScannerSchedule.onlyTouches_cancelIfNotNull (hown t)))).untouched hst, fun _ => ?_⟩
      cases count <;> simp [ScannerStage.outstanding, Ne.symm hst]
  | @unschedule b t count =>
    by_cases hst : s = t
    · subst hst
      exact Or.inr (Or.inr (Or.inr ⟨b, count, rfl, rfl, rfl⟩))
    · refine Or.inl ⟨(ScannerSchedule.onlyTouches_cancelIfNotNull (hown t)).untouched hst,
        fun _ => ?_⟩
      cases count <;> simp [ScannerStage.outstanding, Ne.symm hst]
  | reject hdown =>
    rw [hm.isShutdown] at hdown
    cases hdown
  | _ => exact Or.inl ⟨Untouched.refl, fun _ => rfl⟩

omit [DecidableEq ι] in
/-- A notification is the first of as many as the listener is registered, or follows another. -/
theorem ScannerEffect.notifying_cases (h : ScannerEffect i m v m' v') {enabled : Bool}
    {count : Nat} (hv' : v'.stage = .notifying s enabled count) :
    count = m.schedule.enabledListeners s ∨ v.stage = .notifying s enabled (count + 1) := by
  cases h with
  | fire =>
    obtain ⟨rfl, rfl, rfl⟩ := ScannerStage.notifying.inj hv'
    exact Or.inl rfl
  | reschedule | unschedule =>
    obtain ⟨rfl, rfl, rfl⟩ := ScannerStage.notifying.inj hv'
    exact Or.inr rfl
  | _ => cases hv'

end Effects

/-! ### The invariant -/

/-- `s` stays added and registered, and has at most the stored task live; when the listener has been
told of every change, the flag and the schedule agree. -/
structure Agrees (s : S) (c : ScannerConfig ι S) : Prop where
  mem_keys : s ∈ c.shared.schedule.scheduledScanners.keys
  enabledListeners : c.shared.schedule.enabledListeners s = 1
  stored : ∀ f ∈ c.shared.schedule.live, f.scanner = s →
    c.shared.schedule.scheduledScanners.get s = some f
  atMostOnce : ∀ i enabled count,
    (scannerView (c.thread i)).stage = .notifying s enabled count → count ≤ 1
  live_iff : (∀ i, (scannerView (c.thread i)).stage.outstanding s = false) →
    ((∃ f ∈ c.shared.schedule.live, f.scanner = s) ↔ c.shared.schedule.enabled s = true)

theorem stage_changesMembership {s : S} {i : ι} (h : ¬ ChangesMembership n s c i) :
    (scannerView (c.thread i)).stage.changesMembership s = false := by
  unfold ChangesMembership at h
  cases hi : c.thread i with
  | ready o => rfl
  | running k =>
    rw [hi] at h
    by_contra hstage
    exact h (RunningCall.operation_changesMembership (by simpa using hstage))

omit [DecidableEq ι] in
/-- A step that does not touch `s` keeps it added, registered and stored. -/
theorem Agrees.mem_of_step {s : S} {m' : SharedSchedule ι S} (hc : Agrees s c)
    (h : Untouched s c.shared.schedule m'.schedule) :
    s ∈ m'.schedule.scheduledScanners.keys ∧ m'.schedule.enabledListeners s = 1 ∧
      ∀ f ∈ m'.schedule.live, f.scanner = s → m'.schedule.scheduledScanners.get s = some f := by
  refine ⟨h.keys.mpr hc.mem_keys, h.enabledListeners.trans hc.enabledListeners, ?_⟩
  intro f hf hfs
  rw [h.get]
  exact hc.stored f ((h.live f hfs).mp hf) hfs

/-- When the listener has scheduled a task, it is stored and live, and the only one. -/
theorem live_reschedule {n : ScannerSchedule S} (hn : Owned n) {s : S}
    (hstored : ∀ f ∈ n.live, f.scanner = s → n.scheduledScanners.get s = some f)
    {f : ScheduledFuture S} (hfs : f.scanner = s) :
    f ∈ (((n.schedule s).put s (some ⟨s, n.nextId⟩)).cancelIfNotNull
      (n.scheduledScanners.get s)).live ↔ f = ⟨s, n.nextId⟩ := by
  simp only [ScannerSchedule.mem_live_cancelIfNotNull, ScannerSchedule.put_live,
    ScannerSchedule.schedule_live, Finset.mem_insert]
  constructor
  · rintro ⟨hf | hf, hold⟩
    · exact hf
    · exact absurd (hstored f hf hfs) hold
  · rintro rfl
    exact ⟨Or.inl rfl, fun hget => absurd (hn.own s _ hget).2 (lt_irrefl _)⟩

/-- When the listener has cancelled the stored task, none is live. -/
theorem not_mem_live_unschedule {n : ScannerSchedule S} {s : S}
    (hstored : ∀ f ∈ n.live, f.scanner = s → n.scheduledScanners.get s = some f)
    {f : ScheduledFuture S} (hfs : f.scanner = s) :
    f ∉ (n.cancelIfNotNull (n.scheduledScanners.get s)).live := by
  rw [ScannerSchedule.mem_live_cancelIfNotNull]
  rintro ⟨hf, hne⟩
  exact hne (hstored f hf hfs)

/-- A network at rest, as calls in sequence leave it. -/
theorem agrees_of_init (hn : n.Inv) {s : S} (hs : s ∈ n.scheduledScanners.keys)
    (h : (sharedMachine ι n).init c) : Agrees s c := by
  obtain ⟨hshared, hready⟩ := h
  have hin := hn.inStep s
  have hstage : ∀ i, (scannerView (c.thread i)).stage = .idle := by
    intro i
    obtain ⟨o, ho⟩ := hready i
    rw [ho]
    rfl
  refine ⟨by rw [hshared]; exact hs, ?_, ?_, ?_, ?_⟩
  · rw [hshared]
    exact hin.enabledListeners.trans (if_pos hs)
  · intro f hf hfs
    rw [hshared] at hf ⊢
    exact ((hin.mem_live f hfs).mp hf).2.2
  · intro i enabled count hi
    rw [hstage i] at hi
    cases hi
  · intro _
    rw [hshared]
    constructor
    · rintro ⟨f, hf, hfs⟩
      exact ((hin.mem_live f hfs).mp hf).2.1
    · intro he
      obtain ⟨f, hf⟩ := hin.scheduled hs he
      have hfs := (hin.own f hf).1
      exact ⟨f, (hin.mem_live f hfs).mpr ⟨hs, he, hf⟩, hfs⟩

/-- No notification is repeated. -/
theorem Agrees.count_le {s : S} (hc : Agrees s c) {a : ι × List S}
    (hstep : (sharedMachine ι n).step c a = some c') {j : ι} {enabled : Bool} {count : ℕ}
    (hstage : (scannerView (c'.thread j)).stage = .notifying s enabled count) : count ≤ 1 := by
  obtain ⟨i, order⟩ := a
  by_cases hji : j = i
  · subst hji
    obtain rfl | hstage := (effect_of_scannerStep hstep).notifying_cases hstage
    · exact hc.enabledListeners.le
    · exact (Nat.le_succ _).trans (hc.atMostOnce j enabled _ hstage)
  · rw [Interleaving.thread_step_of_ne hstep hji] at hstage
    exact hc.atMostOnce j enabled count hstage

/-- **A step in order keeps the agreement.** -/
theorem Agrees.step {s : S} (hc : Agrees s c) (hown : Owned c.shared.schedule)
    (hheld : ∀ i, HoldsOwn c.shared.schedule (scannerView (c.thread i))) {i : ι} {order : List S}
    (h : InOrderFor n s c (i, order)) (hstep : (sharedMachine ι n).step c (i, order) = some c') :
    Agrees s c' := by
  obtain ⟨hmember, hstale⟩ := h
  have heff := effect_of_scannerStep hstep
  have hv := stage_changesMembership hmember
  have hv' : (scannerView (c'.thread i)).stage.changesMembership s = false := by
    refine stage_changesMembership (n := n) fun hop => hmember ?_
    rwa [ChangesMembership, Interleaving.opOf_step hstep] at hop
  have hj : ∀ j ≠ i, c'.thread j = c.thread j := fun j => Interleaving.thread_step_of_ne hstep
  have hcount : ∀ j enabled count,
      (scannerView (c'.thread j)).stage = .notifying s enabled count → count ≤ 1 :=
    fun j enabled count => hc.count_le hstep
  have hothers : (∀ j, (scannerView (c'.thread j)).stage.outstanding s = false) →
      ∀ j ≠ i, (scannerView (c.thread j)).stage.outstanding s = false := by
    intro hall j hji
    rw [← hj j hji]
    exact hall j
  obtain ⟨hsame, hout⟩ | ⟨b, enabled, hv, hm, hv'⟩ | ⟨b, count, hv, hm, hv'⟩ |
    ⟨b, count, hv, hm, hv'⟩ := heff.scanner_cases hown (hheld i) hv hv'
  · obtain ⟨hkey, hlisteners, hstored⟩ := hc.mem_of_step hsame
    refine ⟨hkey, hlisteners, hstored, hcount, fun hall => ?_⟩
    have hiff := hc.live_iff fun j => by
      by_cases hji : j = i
      · rw [hji, ← hout hc.enabledListeners]
        exact hall i
      · exact hothers hall j hji
    rw [hsame.enabled, ← hiff]
    exact exists_congr fun f => and_congr_left fun hfs => hsame.live f hfs
  · -- the flag is swapped: either it changes, and a notification is outstanding, or it does not
    refine ⟨by rw [hm]; exact hc.mem_keys, by rw [hm]; exact hc.enabledListeners,
      by rw [hm]; exact hc.stored, hcount, fun hall => ?_⟩
    have hiff := hc.live_iff fun j => by
      by_cases hji : j = i
      · rw [hji, hv]
        rfl
      · exact hothers hall j hji
    have hi := hall i
    rw [hv'] at hi
    have heq : c.shared.schedule.enabled s = enabled := by
      simpa [ScannerStage.outstanding] using hi
    rw [hm, SharedSchedule.update_schedule, ← heq, ScannerSchedule.setFlag_self]
    exact hiff
  · -- the listener schedules; if no other notification is outstanding, the flag is set
    have hlive := fun (f : ScheduledFuture S) (hfs : f.scanner = s) =>
      live_reschedule hown hc.stored hfs
    refine ⟨by simp [hm], by simpa [hm] using hc.enabledListeners, ?_, hcount, fun hall => ?_⟩
    · intro f hf hfs
      rw [hm] at hf ⊢
      obtain rfl := (hlive f hfs).mp hf
      simp
    · have he : c.shared.schedule.enabled s = true := by
        by_contra hne
        exact hstale ⟨⟨true, by simp [hv, ScannerStage.notifies], hne⟩, hothers hall⟩
      rw [hm]
      exact iff_of_true ⟨_, (hlive ⟨s, _⟩ rfl).mpr rfl, rfl⟩ (by simpa using he)
  · -- the listener cancels; if no other notification is outstanding, the flag is not set
    have hlive := fun (f : ScheduledFuture S) (hfs : f.scanner = s) =>
      not_mem_live_unschedule hc.stored hfs
    refine ⟨by simpa [hm] using hc.mem_keys, by simpa [hm] using hc.enabledListeners, ?_, hcount,
      fun hall => ?_⟩
    · intro f hf hfs
      rw [hm] at hf
      exact absurd hf (hlive f hfs)
    · have he : ¬ c.shared.schedule.enabled s = true := by
        intro he
        refine hstale ⟨⟨false, by simp [hv, ScannerStage.notifies], ?_⟩, hothers hall⟩
        simp [he]
      rw [hm]
      refine iff_of_false ?_ (by simpa using he)
      rintro ⟨f, hf, hfs⟩
      exact hlive f hfs hf

theorem agrees_of_reachable (hn : n.Inv) {s : S} (hs : s ∈ n.scheduledScanners.keys)
    (h : (sharedMachine ι n).ReachableOf (InOrderFor n s) c) : Agrees s c := by
  refine h.invariant (fun _ hinit => agrees_of_init hn hs hinit) ?_
  rintro c ⟨i, order⟩ c' hr hc hP hstep
  obtain ⟨hown, hheld⟩ := owned_of_reachable hn hr
  exact hc.step hown hheld hP hstep

variable {autoKill autoDeploy autoRemove status : S}

/-- **Flag and schedule agree otherwise.** When the last notification outstanding is never out of
date, then whenever no call is in flight that can set the flag of `s`, `s` has a live task exactly
when it is enabled. The calls may begin after any sequence of calls, and any other scanners may be
added, removed, enabled and disabled meanwhile. -/
theorem live_iff_enabled
    (hn : (scannerMachine autoKill autoDeploy autoRemove status).ReachableOf BeforeShutdown n)
    {s : S} (hs : s ∈ n.scheduledScanners.keys)
    (h : (sharedMachine ι n).ReachableOf (InOrderFor n s) c)
    (hidle : ∀ i k, c.thread i = .running k → k.operation.setsFlag s = true → k.isOver = true) :
    (c.shared.schedule.liveTasks s).Nonempty ↔ c.shared.schedule.enabled s = true := by
  rw [← (agrees_of_reachable (inv_of_reachable hn) hs h).live_iff]
  · simp only [Finset.Nonempty, ScannerSchedule.liveTasks, Finset.mem_filter]
  · intro i
    cases hi : c.thread i with
    | ready o => rfl
    | running k =>
      by_contra hout
      obtain ⟨hflag, hover⟩ := RunningCall.setsFlag_of_outstanding (by simpa using hout)
      rw [hidle i k hi hflag] at hover
      cases hover

/-- A stale notification leaves flag and schedule in disagreement. -/
theorem not_live_iff_of_notifiesStale (hn : n.Inv) {s : S}
    (hs : s ∈ n.scheduledScanners.keys) (hr : (sharedMachine ι n).ReachableOf (InOrderFor n s) c)
    {i : ι} {order : List S} (h : NotifiesStale s c i)
    (hstep : (sharedMachine ι n).step c (i, order) = some c') :
    ¬ ((c'.shared.schedule.liveTasks s).Nonempty ↔ c'.shared.schedule.enabled s = true) := by
  have hown := (owned_of_reachable hn hr).1
  have hstored := (agrees_of_reachable hn hs hr).stored
  have heff := effect_of_scannerStep hstep
  obtain ⟨⟨enabled, hnotifies, hne⟩, -⟩ := h
  simp only [Finset.Nonempty, ScannerSchedule.liveTasks, Finset.mem_filter]
  generalize scannerView (c.thread i) = v at heff hnotifies
  generalize scannerView (c'.thread i) = v' at heff
  generalize c'.shared = m' at heff ⊢
  cases heff with
  | @reschedule b t count =>
    obtain ⟨rfl, rfl⟩ : t = s ∧ true = enabled := by simpa [ScannerStage.notifies] using hnotifies
    intro hiff
    refine hne ?_
    have hlive := (live_reschedule hown hstored (f := ⟨t, _⟩) rfl).mpr rfl
    simpa using hiff.mp ⟨_, hlive, rfl⟩
  | @unschedule b t count =>
    obtain ⟨rfl, rfl⟩ : t = s ∧ false = enabled := by simpa [ScannerStage.notifies] using hnotifies
    intro hiff
    obtain ⟨f, hf, hfs⟩ := hiff.mpr (by simpa using hne)
    exact not_mem_live_unschedule hstored hfs hf
  | reject hdown =>
    rw [hown.isShutdown] at hdown
    cases hdown
  | _ => simp [ScannerStage.notifies] at hnotifies

/-! ### A disabled scanner that goes on scanning -/

section Example

/-- Call `false` disables scanner `0` and call `true` enables it. -/
def disablerAndEnabler : ScannerConfig Bool Nat where
  shared := ⟨disabledScanners, none, []⟩
  thread i := .ready (.setEnabled 0 i)

theorem disablerAndEnabler_init :
    (sharedMachine Bool disabledScanners).init disablerAndEnabler :=
  ⟨rfl, fun _ => ⟨_, rfl⟩⟩

/-- The enabling call swaps the flag, the disabling one swaps it back, and the enabling one is the
last to notify the listener. -/
theorem exists_live_disabled :
    ∃ c, (sharedMachine Bool disabledScanners).Reachable c ∧ (∀ i, ∃ b,
      c.thread i = .running (.setEnabled 0 b .returned)) ∧
      c.shared.schedule.enabled 0 = false ∧ (c.shared.schedule.liveTasks 0).card = 1 := by
  obtain ⟨c, hr, hc⟩ := (sharedMachine Bool disabledScanners).exists_run_of_exec disablerAndEnabler
    [(true, []), (false, []), (true, []), (false, []), (false, []), (true, []), (false, []),
      (false, []), (true, []), (true, [])]
    (fun c => c.thread false = .running (.setEnabled 0 false .returned) ∧
      c.thread true = .running (.setEnabled 0 true .returned) ∧
      c.shared.schedule.enabled 0 = false ∧ (c.shared.schedule.liveTasks 0).card = 1) (by decide)
  obtain ⟨hf, ht, henabled, hlive⟩ := of_decide_eq_true hc
  refine ⟨c, ⟨_, disablerAndEnabler_init, hr⟩, fun i => ?_, henabled, hlive⟩
  cases i with
  | false => exact ⟨_, hf⟩
  | true => exact ⟨_, ht⟩

/-- The disabling call is the last to notify as well as to swap. -/
theorem live_iff_enabled_inOrder :
    ∃ c, (sharedMachine Bool disabledScanners).Reachable c ∧
      (∀ i, ∃ b, c.thread i = .running (.setEnabled 0 b .returned)) ∧
      ((c.shared.schedule.liveTasks 0).Nonempty ↔ c.shared.schedule.enabled 0 = true) := by
  obtain ⟨c, hr, hc⟩ := (sharedMachine Bool disabledScanners).exists_runOf_of_execOf
    (fun c a => ¬ ChangesMembership disabledScanners 0 c a.1 ∧
      ((scannerView (c.thread a.1)).stage.notifies 0 (!c.shared.schedule.enabled 0) = false ∨
        (scannerView (c.thread !a.1)).stage.outstanding 0 = true))
    disablerAndEnabler
    [(true, []), (false, []), (true, []), (false, []), (false, []), (true, []), (true, []),
      (true, []), (false, []), (false, [])]
    (fun c => c.thread false = .running (.setEnabled 0 false .returned) ∧
      c.thread true = .running (.setEnabled 0 true .returned)) (by decide)
  obtain ⟨hf, ht⟩ := of_decide_eq_true hc
  have hreach : (sharedMachine Bool disabledScanners).ReachableOf
      (InOrderFor disabledScanners 0) c := by
    refine ⟨_, disablerAndEnabler_init, hr.mono ?_⟩
    rintro d ⟨i, order⟩ ⟨hmember, hfresh⟩
    refine ⟨hmember, ?_⟩
    rintro ⟨⟨enabled, hnotifies, hne⟩, hothers⟩
    obtain hfresh | hout := hfresh
    · have hflag : enabled = !d.shared.schedule.enabled 0 := by
        cases enabled <;> simpa using hne
      rw [hflag, hfresh] at hnotifies
      cases hnotifies
    · rw [hothers (!i) (by simp)] at hout
      cases hout
  have hall : ∀ i, ∃ b, c.thread i = .running (.setEnabled 0 b .returned) := by
    intro i
    cases i with
    | false => exact ⟨_, hf⟩
    | true => exact ⟨_, ht⟩
  refine ⟨c, hreach.reachable, hall,
    live_iff_enabled disabledScanners_reachable (by decide) hreach fun i k hk _ => ?_⟩
  obtain ⟨b, hb⟩ := hall i
  rw [hb] at hk
  obtain rfl := Thread.running.inj hk
  rfl

end Example

end Shabdiz
