import Shabdiz.Concurrency.Machine

/-!
# Threads interleaved over a shared memory

Threads share a memory and otherwise keep to themselves: one step of thread `i` reads and writes
the memory and `i`'s own local state, never another thread's. Every thread makes one call; a
thread that makes several in sequence is several threads, which only allows more schedules.

A call starts as an *operation* (what is called, with which arguments) and is `ready` until the
scheduler first picks it. There may be infinitely many threads.

## Proving invariants

`owickiGries` is the one induction. An invariant is split into a part `G` about the memory
and a part `J i` about thread `i` and the memory, and a step of `i` owes two things: that `G` and
its own `J i` hold afterwards, and that it does not disturb `J j` for any other `j`.

## Main definitions

* `Thread`, `Config` — a call before and after it begins, and the memory with all threads
* `Interleaving`, `Interleaving.machine` — what the calls do, and the machine that runs them
* `Interleaving.Alone` — the steps of one call that no other call interrupts
* `Interleaving.Holds` — a thread-indexed invariant

## Main results

* `Interleaving.opOf_step` — a thread never changes what it was called for
* `Interleaving.run_of_alone` — a call that is not interrupted
* `Interleaving.owickiGries`, `Interleaving.owickiGries_next` — the invariant rule
-/

namespace Shabdiz

/-- A thread of an interleaving: about to make a call, or inside it. -/
inductive Thread (θ κ : Type*) where
  | ready (op : θ)
  | running (call : κ)
deriving DecidableEq

/-- The shared memory and every thread. -/
structure Config (ι σ θ κ : Type*) where
  shared : σ
  thread : ι → Thread θ κ

/-- What the calls of a family of threads do. `next i e s k` is one atomic step of thread `i`,
inside call `k`, on memory `s`, given the environment's answer `e`; it is `none` when the call is
over or has to wait. -/
structure Interleaving (ι σ θ κ ε : Type*) where
  /-- The memory before any thread has moved. -/
  initial : σ
  /-- The local state in which an operation begins. -/
  start : θ → κ
  /-- One atomic step of a call. -/
  next : ι → ε → σ → κ → Option (σ × κ)
  /-- The operation a call performs. -/
  op : κ → θ
  op_start : ∀ o, op (start o) = o
  op_next : ∀ {i e s k s' k'}, next i e s k = some (s', k') → op k' = op k

namespace Interleaving

variable {ι σ θ κ ε : Type*} [DecidableEq ι] {L : Interleaving ι σ θ κ ε}

/-- The machine running the threads in any order. `(i, e)` begins the call of thread `i`, or lets
it take one step with the environment's answer `e`. -/
def machine (L : Interleaving ι σ θ κ ε) : Machine (Config ι σ θ κ) (ι × ε) where
  init c := c.shared = L.initial ∧ ∀ i, ∃ o, c.thread i = .ready o
  step c a :=
    match c.thread a.1 with
    | .ready o => some ⟨c.shared, Function.update c.thread a.1 (.running (L.start o))⟩
    | .running k =>
      (L.next a.1 a.2 c.shared k).map fun r =>
        ⟨r.1, Function.update c.thread a.1 (.running r.2)⟩

/-- The operation of a thread, whether or not it has begun. -/
def opOf (L : Interleaving ι σ θ κ ε) : Thread θ κ → θ
  | .ready o => o
  | .running k => L.op k

omit [DecidableEq ι] in
@[simp] theorem opOf_ready (o : θ) : L.opOf (.ready o) = o := rfl

omit [DecidableEq ι] in
@[simp] theorem opOf_running (k : κ) : L.opOf (.running k) = L.op k := rfl

/-- **What one action does.** Thread `i` begins its call, or takes one step of it; no other thread
changes. -/
theorem step_cases {c c' : Config ι σ θ κ} {i : ι} {e : ε} (h : L.machine.step c (i, e) = some c') :
    (∃ o, c.thread i = .ready o ∧
      c' = ⟨c.shared, Function.update c.thread i (.running (L.start o))⟩) ∨
    ∃ k s' k', c.thread i = .running k ∧ L.next i e c.shared k = some (s', k') ∧
      c' = ⟨s', Function.update c.thread i (.running k')⟩ := by
  simp only [machine] at h
  split at h
  · rename_i o ho
    exact Or.inl ⟨o, ho, by simpa using h.symm⟩
  · rename_i k hk
    obtain ⟨⟨s', k'⟩, hr, rfl⟩ := Option.map_eq_some_iff.mp h
    exact Or.inr ⟨k, s', k', hk, hr, rfl⟩

theorem step_running {c : Config ι σ θ κ} {i : ι} {e : ε} {k k' : κ} {s' : σ}
    (hk : c.thread i = .running k) (hn : L.next i e c.shared k = some (s', k')) :
    L.machine.step c (i, e) = some ⟨s', Function.update c.thread i (.running k')⟩ := by
  simp [machine, hk, hn]

/-- One action changes no other thread. -/
theorem thread_step_of_ne {c c' : Config ι σ θ κ} {i j : ι} {e : ε}
    (h : L.machine.step c (i, e) = some c') (hj : j ≠ i) : c'.thread j = c.thread j := by
  obtain ⟨o, ho, rfl⟩ | ⟨k, s', k', hk, hn, rfl⟩ := step_cases h <;>
    simp [Function.update_of_ne hj]

/-- A call that has begun does not begin again. -/
theorem thread_step_ne_ready {c c' : Config ι σ θ κ} {i j : ι} {e : ε}
    (h : L.machine.step c (i, e) = some c') (hj : ∀ o, c.thread j ≠ .ready o) (o : θ) :
    c'.thread j ≠ .ready o := by
  by_cases hji : j = i
  · subst hji
    obtain ⟨o', ho, rfl⟩ | ⟨k, s', k', hk, hn, rfl⟩ := step_cases h <;> simp
  · rw [thread_step_of_ne h hji]
    exact hj o

/-- The steps of one call while no other call takes any. -/
def Alone (L : Interleaving ι σ θ κ ε) (i : ι) : σ × κ → σ × κ → Prop :=
  Relation.ReflTransGen fun x y => ∃ e, L.next i e x.1 x.2 = some y

/-- What a call does alone is one of the runs. -/
theorem run_of_alone {c : Config ι σ θ κ} {i : ι} {k : κ} {y : σ × κ}
    (h : L.Alone i (c.shared, k) y) (hk : c.thread i = .running k) :
    L.machine.Run c ⟨y.1, Function.update c.thread i (.running y.2)⟩ := by
  induction h with
  | refl =>
    rw [← hk, Function.update_eq_self]
    exact Machine.RunOf.refl
  | @tail y z _ hstep ih =>
    obtain ⟨e, he⟩ := hstep
    have hs := step_running (c := ⟨y.1, Function.update c.thread i (.running y.2)⟩)
      (Function.update_self ..) he
    rw [Function.update_idem] at hs
    exact ih.tail trivial hs

/-- A thread never changes what it was called for. -/
theorem opOf_step {c c' : Config ι σ θ κ} {a : ι × ε} (h : L.machine.step c a = some c') (j : ι) :
    L.opOf (c'.thread j) = L.opOf (c.thread j) := by
  obtain ⟨i, e⟩ := a
  by_cases hj : j = i
  · subst hj
    obtain ⟨o, ho, rfl⟩ | ⟨k, s', k', hk, hn, rfl⟩ := step_cases h
    · simp [ho, L.op_start]
    · simp [hk, L.op_next hn]
  · rw [thread_step_of_ne h hj]

/-! ### Thread-indexed invariants -/

/-- `G` of the memory, and `J i` of the memory and thread `i`, for every `i`. -/
def Holds (G : σ → Prop) (J : ι → σ → Thread θ κ → Prop) (c : Config ι σ θ κ) : Prop :=
  G c.shared ∧ ∀ i, J i c.shared (c.thread i)

variable {G : σ → Prop} {J : ι → σ → Thread θ κ → Prop} {P : Config ι σ θ κ → ι × ε → Prop}

/-- **The invariant rule.** A step keeps the memory's assertion and the acting thread's own, and
does not disturb another thread's. -/
theorem owickiGries {c : Config ι σ θ κ} (h : L.machine.ReachableOf P c)
    (hinit : G L.initial ∧ ∀ i o, J i L.initial (.ready o))
    (hown : ∀ c i e c', L.machine.ReachableOf P c → Holds G J c → P c (i, e) →
      L.machine.step c (i, e) = some c' → G c'.shared ∧ J i c'.shared (c'.thread i))
    (hother : ∀ c i e c' j, L.machine.ReachableOf P c → Holds G J c → P c (i, e) →
      L.machine.step c (i, e) = some c' → j ≠ i → J j c'.shared (c.thread j)) :
    Holds G J c := by
  refine h.invariant (fun c₀ hc₀ => ?_) ?_
  · obtain ⟨hs, ht⟩ := hc₀
    refine ⟨hs ▸ hinit.1, fun i => ?_⟩
    obtain ⟨o, ho⟩ := ht i
    rw [hs, ho]
    exact hinit.2 i o
  · rintro d ⟨i, e⟩ d' hd hd₁ hP hs
    refine ⟨(hown d i e d' hd hd₁ hP hs).1, fun j => ?_⟩
    by_cases hj : j = i
    · subst hj
      exact (hown d j e d' hd hd₁ hP hs).2
    · rw [thread_step_of_ne hs hj]
      exact hother d i e d' j hd hd₁ hP hs hj

/-- The invariant rule with the two kinds of steps apart: a call that begins, which leaves the
memory as it is, and a step of a call that has begun. -/
theorem owickiGries_next {c : Config ι σ θ κ} (h : L.machine.ReachableOf P c)
    (hinit : G L.initial ∧ ∀ i o, J i L.initial (.ready o))
    (hstart : ∀ c i e o, L.machine.ReachableOf P c → Holds G J c → P c (i, e) →
      c.thread i = .ready o → J i c.shared (.running (L.start o)))
    (hown : ∀ c i e k s' k', L.machine.ReachableOf P c → Holds G J c → P c (i, e) →
      c.thread i = .running k → L.next i e c.shared k = some (s', k') →
      G s' ∧ J i s' (.running k'))
    (hother : ∀ c i e k s' k' j, L.machine.ReachableOf P c → Holds G J c → P c (i, e) →
      c.thread i = .running k → L.next i e c.shared k = some (s', k') → j ≠ i →
      J j s' (c.thread j)) :
    Holds G J c := by
  refine owickiGries h hinit ?_ ?_
  · intro c i e c' hr hc hP hs
    obtain ⟨o, ho, rfl⟩ | ⟨k, s', k', hk, hn, rfl⟩ := step_cases hs
    · have hj := hstart c i e o hr hc hP ho
      exact ⟨hc.1, by simpa using hj⟩
    · have hj := hown c i e k s' k' hr hc hP hk hn
      exact ⟨hj.1, by simpa using hj.2⟩
  · intro c i e c' j hr hc hP hs hj
    obtain ⟨o, ho, rfl⟩ | ⟨k, s', k', hk, hn, rfl⟩ := step_cases hs
    · exact hc.2 j
    · exact hother c i e k s' k' j hr hc hP hk hn hj

end Interleaving

end Shabdiz
