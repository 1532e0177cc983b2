import Shabdiz.Core.Writes

/-!
# The instances of a descriptor

"An application descriptor is one-to-one with an application instance." A deployment starts an
instance, then stores its reference, then writes `DEPLOYED`, and nothing keeps two deployments, or
a deployment and a kill, apart: each acts on a state that it or its caller has read before.

The theorem of this module says how much would have to be kept apart. If the manager is asked to
deploy only while no instance is alive, and `KILLED` is never written over the `DEPLOYED` of an
instance that is still alive, then a descriptor at rest has at most one instance, which is the one
it refers to, and none if it is `KILLED`.

## Main definitions

* `Quiescent` — no operation is in flight
* `OneInstance` — what the descriptor promises about its instances
* `Fresh` — the manager never returns a reference twice
* `Undisturbed` — a step that does not deploy beside, or write `KILLED` over, a live instance

## Main results

* `oneInstance_of_quiescent` — undisturbed runs keep the promise
* `exists_two_instances` — and others need not
-/

namespace Shabdiz

open ApplicationDescriptor

variable {ι ρ η : Type}

/-! ### At rest -/

/-- The deployment has more to do. -/
def DeployPoint.active : DeployPoint ρ → Bool
  | updating p => p.inFlight
  | thrown _ => false
  | _ => true

/-- The kill has more to do. -/
def KillPoint.active : KillPoint → Bool
  | updating p => p.inFlight
  | thrown _ => false
  | _ => true

/-- Whether a call is an operation that has not ended. A call that waits for a state is none. -/
def Call.active : Call ρ → Bool
  | awaitAnyOfStates _ _ => false
  | setApplicationState _ p => p.inFlight
  | compareAndSetApplicationState _ _ p => p.inFlight
  | deploy p => p.active
  | kill p => p.active
  | statusScan (.updating _ _ p) => p.inFlight
  | statusScan (.thrown _) => false
  | autoDeployScan (.deploying p) => p.active
  | autoDeployScan .skipped => false
  | autoKillScan (.killing p) => p.active
  | autoKillScan .skipped => false
  | _ => true

/-- No operation on the descriptor is in flight. -/
def Quiescent (c : DescriptorConfig ι ρ) : Prop :=
  ∀ i k, c.thread i = .running k → k.active = false

/-- At most one instance is alive, the one that the descriptor refers to; none, if the state is
`KILLED`. -/
structure OneInstance (d : ApplicationDescriptor ι ρ) : Prop where
  single : d.alive.length ≤ 1
  reference : ∀ r ∈ d.alive, d.applicationReference = some r
  killed : d.state = .killed → d.alive = []

/-- A call that is not active has stored its reference and has written. -/
theorem Call.stage_of_not_active {k : Call ρ} (h : k.active = false) :
    (∀ r, k.view.stage ≠ .created r) ∧ ∀ expect new, k.view.stage ≠ .ready expect new := by
  cases k with
  | awaitAnyOfStates states p => cases p <;> simp [view, AwaitPoint.view]
  | setApplicationState new p =>
    cases p <;> simp_all [active, view, SetPoint.inFlight, SetPoint.stage]
  | compareAndSetApplicationState expect new p =>
    cases p <;> simp_all [active, view, CasPoint.inFlight, CasPoint.stage]
  | deploy p =>
    rcases p with _ | _ | (_ | _ | _ | _ | _) | _ <;>
      simp_all [active, view, DeployPoint.active, DeployPoint.view, SetPoint.inFlight,
        SetPoint.stage]
  | kill p =>
    rcases p with _ | (_ | _ | _ | _ | _) | _ <;>
      simp_all [active, view, KillPoint.active, KillPoint.view, SetPoint.inFlight, SetPoint.stage]
  | statusScan p =>
    rcases p with _ | ⟨_, _, _ | _ | _⟩ | _ <;>
      simp_all [active, view, StatusScanPoint.view, CasPoint.inFlight, CasPoint.stage]
  | autoDeployScan p =>
    rcases p with _ | (_ | _ | (_ | _ | _ | _ | _) | _) | _ <;>
      simp_all [active, view, DeployPoint.active, DeployPoint.view, AutoDeployScanPoint.view,
        SetPoint.inFlight, SetPoint.stage]
  | autoKillScan p =>
    rcases p with _ | (_ | (_ | _ | _ | _ | _) | _) | _ <;>
      simp_all [active, view, KillPoint.active, KillPoint.view, AutoKillScanPoint.view,
        SetPoint.inFlight, SetPoint.stage]

/-! ### Undisturbed steps -/

/-- The reference that the manager returns, if the answer is for a deployment and it succeeds. -/
def Answer.deployed (m : AbstractApplicationManager ρ η) : Answer η → Option ρ
  | deploy answer => (m.deploy answer).toOption
  | _ => none

/-- The manager starts a new instance: its reference is none that it has returned before. -/
def Fresh (m : AbstractApplicationManager ρ η) (c : DescriptorConfig ι ρ) (a : ι × Answer η) :
    Prop :=
  ∀ r ∈ a.2.deployed m, ∀ j, .deployed j r ∉ c.shared.log

/-- The next step of call `i` writes `KILLED`. -/
def WritesKilled (c : DescriptorConfig ι ρ) (i : ι) : Prop :=
  (c.thread i).view = ⟨true, .ready none .killed⟩ ∨
    (c.thread i).view = ⟨false, .ready (some c.shared.state) .killed⟩

instance [DecidableEq ρ] (c : DescriptorConfig ι ρ) (i : ι) : Decidable (WritesKilled c i) :=
  inferInstanceAs (Decidable (_ ∨ _))

/-- The step does not start an instance beside a live one, and does not write `KILLED` over the
`DEPLOYED` of a live one. -/
structure Undisturbed (m : AbstractApplicationManager ρ η) (c : DescriptorConfig ι ρ)
    (a : ι × Answer η) : Prop where
  deploy : ∀ r ∈ a.2.deployed m, c.shared.alive = []
  kill : WritesKilled c a.1 → ∀ r ∈ c.shared.alive, ∃ i, .deployed i r ∈ c.shared.log ∧
    ∀ old, .wrote i old .deployed ∉ c.shared.log

/-! ### The invariant -/

/-- The part of the invariant about the descriptor. -/
structure Instances (d : ApplicationDescriptor ι ρ) : Prop where
  single : d.alive.length ≤ 1
  deployed : ∀ r ∈ d.alive, ∃ i, .deployed i r ∈ d.log
  unique : ∀ i j r, .deployed i r ∈ d.log → .deployed j r ∈ d.log → i = j
  stored : ∀ i r, .stored i r ∈ d.log → .deployed i r ∈ d.log
  reference : ∀ r, d.applicationReference = some r → ∃ i, .stored i r ∈ d.log
  current : ∀ r ∈ d.alive, d.applicationReference = some r ∨
    ∃ i, .deployed i r ∈ d.log ∧ .stored i r ∉ d.log
  killed : d.state = .killed → ∀ r ∈ d.alive, ∃ i, .deployed i r ∈ d.log ∧
    ∀ old, .wrote i old .deployed ∉ d.log

/-- The part of the invariant about call `i`, by its stage: how far it has come with the instance
that it has started. -/
def Started (i : ι) (d : ApplicationDescriptor ι ρ) : Stage ρ → Prop
  | .idle => ∀ r, .deployed i r ∉ d.log
  | .created r => r ∈ d.alive ∧ .deployed i r ∈ d.log ∧ .stored i r ∉ d.log ∧
    ∀ r', .deployed i r' ∈ d.log → r' = r
  | .ready expect new => ∀ r, .deployed i r ∈ d.log →
    .stored i r ∈ d.log ∧ expect = none ∧ new = .deployed
  | _ => ∀ r, .deployed i r ∈ d.log → .stored i r ∈ d.log ∧ ∃ old, .wrote i old .deployed ∈ d.log

section Steps

variable {i j : ι} {r : ρ} {new : ApplicationState} {d d' : ApplicationDescriptor ι ρ}

/-- Steps that start, store and write nothing; instances may have ended. -/
theorem Instances.congr (h : Instances d) (halive : d'.alive.Sublist d.alive)
    (hreference : d'.applicationReference = d.applicationReference) (hstate : d'.state = d.state)
    (hdeployed : ∀ i r, .deployed i r ∈ d'.log ↔ .deployed i r ∈ d.log)
    (hstored : ∀ i r, .stored i r ∈ d'.log ↔ .stored i r ∈ d.log)
    (hwrote : ∀ i old new, .wrote i old new ∈ d'.log ↔ .wrote i old new ∈ d.log) :
    Instances d' where
  single := Nat.le_trans halive.length_le h.single
  deployed r hr := by
    simp only [hdeployed]
    exact h.deployed r (halive.subset hr)
  unique i j r := by
    rw [hdeployed, hdeployed]
    exact h.unique i j r
  stored i r := by
    rw [hdeployed, hstored]
    exact h.stored i r
  reference r hr := by
    simp only [hstored]
    exact h.reference r (hreference ▸ hr)
  current r hr := by
    simp only [hdeployed, hstored, hreference]
    exact h.current r (halive.subset hr)
  killed hs r hr := by
    simp only [hdeployed, hwrote]
    exact h.killed (hstate ▸ hs) r (halive.subset hr)

/-- The manager starts an instance when none is alive. -/
theorem Instances.create (h : Instances d) (hfresh : ∀ j, .deployed j r ∉ d.log)
    (halive : d.alive = []) (hi : ∀ old new, .wrote i old new ∉ d.log) :
    Instances (d.create i r) where
  single := by simp [halive]
  deployed r' hr' := by
    obtain rfl : r' = r := by simpa [halive] using hr'
    exact ⟨i, by simp⟩
  unique j k r' hj hk := by
    simp only [create_log, List.mem_append, List.mem_singleton, Event.deployed.injEq] at hj hk
    obtain hj | ⟨rfl, rfl⟩ := hj
    · obtain hk | ⟨rfl, rfl⟩ := hk
      · exact h.unique j k r' hj hk
      · exact absurd hj (hfresh j)
    · obtain hk | ⟨rfl, -⟩ := hk
      · exact absurd hk (hfresh k)
      · rfl
  stored j r' hj := by
    have hj : .stored j r' ∈ d.log := by simpa using hj
    exact List.mem_append_left _ (h.stored j r' hj)
  reference r' hr' := by
    obtain ⟨j, hj⟩ := h.reference r' hr'
    exact ⟨j, List.mem_append_left _ hj⟩
  current r' hr' := by
    obtain rfl : r' = r := by simpa [halive] using hr'
    refine Or.inr ⟨i, by simp, fun hst => ?_⟩
    have hst : .stored i r' ∈ d.log := by simpa using hst
    exact hfresh i (h.stored i r' hst)
  killed _ r' hr' := by
    obtain rfl : r' = r := by simpa [halive] using hr'
    exact ⟨i, by simp, fun old hw => hi old .deployed (by simpa using hw)⟩

/-- The reference that is stored is that of the one live instance. -/
theorem Instances.store (h : Instances d) (hr : r ∈ d.alive) (hi : .deployed i r ∈ d.log) :
    Instances (d.setApplicationReference i r) where
  single := h.single
  deployed r' hr' := by
    obtain ⟨j, hj⟩ := h.deployed r' hr'
    exact ⟨j, List.mem_append_left _ hj⟩
  unique j k r' hj hk := h.unique j k r' (by simpa using hj) (by simpa using hk)
  stored j r' hj := by
    simp only [setApplicationReference_log, List.mem_append, List.mem_singleton,
      Event.stored.injEq] at hj
    obtain hj | ⟨rfl, rfl⟩ := hj
    · exact List.mem_append_left _ (h.stored j r' hj)
    · exact List.mem_append_left _ hi
  reference r' hr' := by
    obtain rfl : r = r' := Option.some.inj hr'
    exact ⟨i, by simp⟩
  current r' hr' := by
    have hone : ∀ x ∈ d.alive, x = r := by
      obtain ⟨x, hx⟩ := List.length_eq_one_iff.mp
        (Nat.le_antisymm h.single (List.length_pos_of_mem hr))
      rw [hx] at hr ⊢
      intro y hy
      rw [List.mem_singleton.mp hy, List.mem_singleton.mp hr]
    exact Or.inl (congrArg some (hone r' hr').symm)
  killed hs r' hr' := by
    obtain ⟨j, hj, hw⟩ := h.killed hs r' hr'
    exact ⟨j, List.mem_append_left _ hj, fun old hmem => hw old (by simpa using hmem)⟩

/-- `KILLED` is written only over instances whose deployment has not written. -/
theorem Instances.swap (h : Instances d) (hkilled : new = .killed → ∀ r ∈ d.alive, ∃ i,
    .deployed i r ∈ d.log ∧ ∀ old, .wrote i old .deployed ∉ d.log) :
    Instances (d.swap i new) where
  single := h.single
  deployed r hr := by
    obtain ⟨j, hj⟩ := h.deployed r hr
    exact ⟨j, List.mem_append_left _ hj⟩
  unique j k r hj hk := h.unique j k r (by simpa using hj) (by simpa using hk)
  stored j r hj := List.mem_append_left _ (h.stored j r (by simpa using hj))
  reference r hr := by
    obtain ⟨j, hj⟩ := h.reference r hr
    exact ⟨j, List.mem_append_left _ hj⟩
  current r hr := by
    obtain hr | ⟨j, hj, hst⟩ := h.current r hr
    · exact Or.inl hr
    · exact Or.inr ⟨j, List.mem_append_left _ hj, by simpa using hst⟩
  killed hs r hr := by
    obtain rfl : new = .killed := hs
    obtain ⟨j, hj, hw⟩ := hkilled rfl r hr
    exact ⟨j, List.mem_append_left _ hj, fun old hmem => hw old (by simpa using hmem)⟩

/-- An instance whose reference is not stored does not end. -/
theorem Instances.ne_reference (h : Instances d) (hi : .deployed i r ∈ d.log)
    (hst : .stored i r ∉ d.log) : d.applicationReference ≠ some r := by
  intro href
  obtain ⟨j, hj⟩ := h.reference r href
  obtain rfl : j = i := h.unique j i r (h.stored j r hj) hi
  exact hst hj

variable [DecidableEq ι] [DecidableEq ρ] {m : AbstractApplicationManager ρ η} {answer : Answer η}
  {v v' : View ρ}

omit [DecidableEq ι] in
theorem endInstance_alive_sublist (d : ApplicationDescriptor ι ρ) :
    d.endInstance.alive.Sublist d.alive := by
  rw [endInstance_alive]
  split
  · exact List.Sublist.refl _
  · exact List.erase_sublist

omit [DecidableEq ι] in
theorem mem_endInstance_alive (hr : r ∈ d.alive) (href : d.applicationReference ≠ some r) :
    r ∈ d.endInstance.alive := by
  rw [endInstance_alive]
  split
  · exact hr
  · rename_i r' hr'
    rw [hr'] at href
    exact (List.mem_erase_of_ne fun heq => href (congrArg some heq.symm)).mpr hr

/-- **The step lemma**, for the descriptor. -/
theorem Instances.step (h : Instances d) (hs : Started i d v.stage) (hw : Swaps i d.log v.stage)
    (hdeploy : ∀ r ∈ answer.deployed m, d.alive = [] ∧ ∀ j, .deployed j r ∉ d.log)
    (hkill : v = ⟨true, .ready none .killed⟩ ∨ v = ⟨false, .ready (some d.state) .killed⟩ →
      ∀ r ∈ d.alive, ∃ i, .deployed i r ∈ d.log ∧ ∀ old, .wrote i old .deployed ∉ d.log)
    (heff : Effect m i answer d v d' v') : Instances d' := by
  cases heff with
  | @create _ r ha hm =>
    obtain ⟨halive, hfresh⟩ := hdeploy r (by rw [ha, Answer.deployed, hm]; rfl)
    exact h.create hfresh halive hw.2
  | store => exact h.store hs.1 hs.2.1
  | swap => exact h.swap fun hnew => hkill (Or.inl (by rw [hnew]))
  | compareAndSwap => exact h.swap fun hnew => hkill (Or.inr (by rw [hnew]))
  | kill => exact h.congr (endInstance_alive_sublist d) rfl rfl (by simp) (by simp) (by simp)
  | failEnding => exact h.congr (endInstance_alive_sublist d) rfl rfl (by simp) (by simp) (by simp)
  | _ => exact h.congr (List.Sublist.refl _) rfl rfl (by simp) (by simp) (by simp)

omit [DecidableEq ι] [DecidableEq ρ] in
theorem Started.congr {s : Stage ρ} (h : Started i d s)
    (halive : ∀ r, s = .created r → r ∈ d.alive → r ∈ d'.alive)
    (hdeployed : ∀ r, .deployed i r ∈ d'.log ↔ .deployed i r ∈ d.log)
    (hstored : ∀ r, .stored i r ∈ d'.log ↔ .stored i r ∈ d.log)
    (hwrote : ∀ old new, .wrote i old new ∈ d'.log ↔ .wrote i old new ∈ d.log) :
    Started i d' s := by
  cases s with
  | created r =>
    obtain ⟨hr, hd, hst, huniq⟩ := h
    refine ⟨halive r rfl hr, (hdeployed r).mpr hd, fun hmem => hst ((hstored r).mp hmem), ?_⟩
    simpa only [hdeployed] using huniq
  | _ => simpa only [Started, hdeployed, hstored, hwrote] using h

/-- The step lemma, for the acting call. -/
theorem Started.step (h : Started i d v.stage) (hd : Instances d)
    (heff : Effect m i answer d v d' v') : Started i d' v'.stage := by
  cases heff with
  | @create _ r =>
    refine ⟨by simp, by simp, fun hst => ?_, fun r' hr' => ?_⟩
    · have hst : .stored i r ∈ d.log := by simpa using hst
      exact h r (hd.stored i r hst)
    · have hr' : .deployed i r' ∈ d.log ∨ r' = r := by simpa using hr'
      exact hr'.resolve_left (h r')
  | store =>
    intro r' hr'
    have hr' : .deployed i r' ∈ d.log := by simpa using hr'
    obtain rfl := h.2.2.2 r' hr'
    exact ⟨by simp, rfl, rfl⟩
  | swap =>
    intro r hr
    have hr : .deployed i r ∈ d.log := by simpa using hr
    obtain ⟨hst, -, rfl⟩ := h r hr
    exact ⟨List.mem_append_left _ hst, d.state, by simp⟩
  | compareAndSwap =>
    intro r hr
    have hr : .deployed i r ∈ d.log := by simpa using hr
    obtain ⟨-, hnone, -⟩ := h r hr
    cases hnone
  | skip =>
    intro r hr
    obtain ⟨-, hnone, -⟩ := h r hr
    cases hnone
  | check | satisfy | probe | kill | fail | failEnding =>
    intro r hr
    have hr : .deployed i r ∈ d.log := by simpa using hr
    exact absurd hr (h r)
  | listen | wake | unlisten | fire =>
    exact Started.congr (s := .ended) h (by simp) (by simp) (by simp) (by simp)
  | enter | leave | stay | read => exact h.congr (by simp) (by simp) (by simp) (by simp)

/-- The step lemma, for the other calls. -/
theorem Started.other {s : Stage ρ} (h : Started j d s) (hd : Instances d) (hj : j ≠ i)
    (heff : Effect m i answer d v d' v') : Started j d' s := by
  have halive : ∀ r, s = .created r → r ∈ d.alive → r ∈ d'.alive := by
    rintro r rfl hr
    have href := hd.ne_reference h.2.1 h.2.2.1
    cases heff with
    | create => exact List.mem_cons_of_mem _ hr
    | kill => exact mem_endInstance_alive hr href
    | failEnding => exact mem_endInstance_alive hr href
    | _ => exact hr
  obtain hlog | ⟨e, he, hlog⟩ := heff.log_eq
  · exact h.congr halive (by simp [hlog]) (by simp [hlog]) (by simp [hlog])
  · have hne : ∀ x : Event ι ρ, x.owner = j → (x ∈ d'.log ↔ x ∈ d.log) := by
      intro x hx
      rw [hlog]
      exact Event.mem_concat_of_owner_ne (by rw [he, hx]; exact hj.symm)
    exact h.congr halive (fun r => hne _ rfl) (fun r => hne _ rfl) fun old new => hne _ rfl

end Steps

/-! ### Over runs -/

variable [DecidableEq ι] [DecidableEq ρ] {m : AbstractApplicationManager ρ η}
  {c : DescriptorConfig ι ρ}

theorem instances_of_reachable
    (h : (descriptorMachine ι m).ReachableOf (fun c a => Fresh m c a ∧ Undisturbed m c a) c) :
    Instances c.shared ∧ ∀ i, Started i c.shared (c.thread i).view.stage := by
  refine descriptor_invariant (A := fun i d v => Started i d v.stage) h ?_ ?_ ?_
  · refine ⟨⟨by simp, by simp, by simp, by simp, by simp, by simp, by simp⟩, fun i o => ?_⟩
    obtain hstart | ⟨expect, new, hstart⟩ := o.view_start (ρ := ρ)
    · simp [hstart, Started]
    · simp [hstart, Started]
  · rintro c i e c' d' v v' hr hG hA ⟨hfresh, hapart⟩ - - rfl heff
    refine ⟨hG.step (hA i) (swaps_of_reachable hr i) (fun r hm => ?_) hapart.kill heff,
      (hA i).step hG heff⟩
    exact ⟨hapart.deploy r hm, hfresh r hm⟩
  · rintro c i e c' d' v v' j hr hG hA - - - - heff hj
    exact (hA j).other hG hj heff

/-- **One instance.** In a run whose steps are all undisturbed, a descriptor at rest has at most
one instance, which is the one that it refers to, and none if it is `KILLED`. -/
theorem oneInstance_of_quiescent
    (h : (descriptorMachine ι m).ReachableOf (fun c a => Fresh m c a ∧ Undisturbed m c a) c)
    (hq : Quiescent c) : OneInstance c.shared := by
  obtain ⟨hG, hA⟩ := instances_of_reachable h
  -- at rest, whoever has started an instance has stored its reference and written
  have hdone : ∀ i r, .deployed i r ∈ c.shared.log →
      .stored i r ∈ c.shared.log ∧ ∃ old, .wrote i old .deployed ∈ c.shared.log := by
    intro i r hi
    have hi' := hA i
    cases ht : c.thread i with
    | ready o => exact absurd rfl (owner_ne_of_ready h ht hi)
    | running k =>
      obtain ⟨hcreated, hready⟩ := Call.stage_of_not_active (hq i k ht)
      rw [ht] at hi'
      cases hs : k.view.stage with
      | created r' => exact absurd hs (hcreated r')
      | ready expect new => exact absurd hs (hready expect new)
      | idle =>
        rw [Thread.view_running, hs] at hi'
        exact absurd hi (hi' r)
      | _ =>
        rw [Thread.view_running, hs] at hi'
        exact hi' r hi
  refine ⟨hG.single, fun r hr => ?_, fun hs => ?_⟩
  · obtain hr | ⟨i, hi, hst⟩ := hG.current r hr
    · exact hr
    · exact absurd (hdone i r hi).1 hst
  · rw [List.eq_nil_iff_forall_not_mem]
    intro r hr
    obtain ⟨i, hi, hw⟩ := hG.killed hs r hr
    obtain ⟨-, old, hold⟩ := hdone i r hi
    exact hw old hold

/-! ### Two instances -/

/-- A step of a network's operations, with a manager that starts new instances, and with users who
deploy only when the state is neither `DEPLOYED` nor `RUNNING`. -/
structure Legal (m : AbstractApplicationManager ρ η) (c : DescriptorConfig ι ρ)
    (a : ι × Answer η) : Prop where
  fresh : Fresh m c a
  noDirectWrite : NoDirectWrite m c a
  deployable : c.thread a.1 = .ready .deploy →
    c.shared.state ≠ .deployed ∧ c.shared.state ≠ .running

section Example

variable {n : Nat}

instance (m : AbstractApplicationManager ρ η) (c : DescriptorConfig (Fin n) ρ)
    (a : Fin n × Answer η) : Decidable (Fresh m c a) :=
  inferInstanceAs (Decidable (∀ r ∈ a.2.deployed m, ∀ j, .deployed j r ∉ c.shared.log))

instance (m : AbstractApplicationManager ρ η) (c : DescriptorConfig (Fin n) ρ)
    (a : Fin n × Answer η) : Decidable (Legal m c a) :=
  decidable_of_iff (Fresh m c a ∧ NoDirectWrite m c a ∧ (c.thread a.1 = .ready .deploy →
      c.shared.state ≠ .deployed ∧ c.shared.state ≠ .running))
    ⟨fun ⟨h₁, h₂, h₃⟩ => ⟨h₁, h₂, h₃⟩, fun ⟨h₁, h₂, h₃⟩ => ⟨h₁, h₂, h₃⟩⟩

/-- Two users deploy, both while the state is `UNKNOWN`. -/
theorem exists_two_instances :
    ∃ c, (descriptorMachine (Fin 2) (.unconstrained (Fin 2))).ReachableOf
      (Legal (.unconstrained (Fin 2))) c ∧ Quiescent c ∧ ¬ OneInstance c.shared := by
  let c₀ : DescriptorConfig (Fin 2) (Fin 2) := ⟨.new, fun _ => .ready .deploy⟩
  obtain ⟨c, hr, hc⟩ := (descriptorMachine (Fin 2) (.unconstrained (Fin 2))).exists_runOf_of_execOf
    (Legal (.unconstrained (Fin 2))) c₀
    [(0, .go), (1, .go), (0, .deploy (.ok 0)), (1, .deploy (.ok 1)),
      (0, .go), (0, .go), (0, .go), (0, .go), (0, .go),
      (1, .go), (1, .go), (1, .go), (1, .go), (1, .go)]
    (fun c => (∀ i, c.thread i = .running (.deploy (.updating .returned))) ∧
      c.shared.alive.length = 2) (by decide)
  obtain ⟨hdone, halive⟩ := of_decide_eq_true hc
  refine ⟨c, ⟨c₀, ⟨rfl, fun _ => ⟨_, rfl⟩⟩, hr⟩, fun i k hk => ?_, fun hone => ?_⟩
  · rw [hdone i] at hk
    obtain rfl := Thread.running.inj hk
    rfl
  · have hsingle := hone.single
    omega

/-- A deployment, a kill and another deployment, one after the other. -/
theorem oneInstance_deploy_kill_deploy :
    ∃ c : DescriptorConfig (Fin 3) (Fin 2), c.shared.alive = [1] ∧ OneInstance c.shared := by
  let m : AbstractApplicationManager (Fin 2) (Except Throwable (Fin 2)) := .unconstrained (Fin 2)
  let c₀ : DescriptorConfig (Fin 3) (Fin 2) :=
    ⟨.new, fun i => .ready (if i = 1 then .kill else .deploy)⟩
  let q : Fin 3 → Call (Fin 2) := fun i =>
    if i = 1 then .kill (.updating .returned) else .deploy (.updating .returned)
  obtain ⟨c, hr, hc⟩ := (descriptorMachine (Fin 3) m).exists_runOf_of_execOf
    (fun c a => Fresh m c a ∧ (∀ r ∈ a.2.deployed m, c.shared.alive = []) ∧
      (WritesKilled c a.1 → c.shared.alive = [])) c₀
    [(0, .go), (0, .deploy (.ok 0)), (0, .go), (0, .go), (0, .go), (0, .go), (0, .go),
      (1, .go), (1, .kill (.ok 0) true), (1, .go), (1, .go), (1, .go), (1, .go),
      (2, .go), (2, .deploy (.ok 1)), (2, .go), (2, .go), (2, .go), (2, .go), (2, .go)]
    (fun c => (∀ i, c.thread i = .running (q i)) ∧ c.shared.alive = [1]) (by decide)
  obtain ⟨hdone, halive⟩ := of_decide_eq_true hc
  have hreach : (descriptorMachine (Fin 3) m).ReachableOf
      (fun c a => Fresh m c a ∧ Undisturbed m c a) c := by
    refine ⟨c₀, ⟨rfl, fun _ => ⟨_, rfl⟩⟩, hr.mono fun d a hP => ⟨hP.1, hP.2.1, fun hw => ?_⟩⟩
    rw [hP.2.2 hw]
    intro r hr
    cases hr
  refine ⟨c, halive, oneInstance_of_quiescent hreach fun i k hk => ?_⟩
  rw [hdone i] at hk
  obtain rfl := Thread.running.inj hk
  match i with
  | 0 | 1 | 2 => rfl

end Example

end Shabdiz
