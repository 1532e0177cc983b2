import Mathlib.Data.Prod.Lex
import Shabdiz.Job.JobMachine

/-!
# The shutdown of a network

`WorkerNetwork.shutdown` ends with `releaseAllPendingFutures`, which iterates over `id_future_map`
and fails every future that it finds pending. Callbacks, cancellations, failed submissions and new
submissions go on meanwhile. What the iteration still has to see or to fail is pending at most, so
when the iteration is over nothing that was there at its start is.

The shutdown gets there by itself. Nobody else moves its thread, none of its steps waits for a
future, and every step brings its end closer, unless a call that it makes throws. The iteration may
also see futures registered after it began; it is over once it has seen the others and comes to no
more of these.

## Main definitions

* `Swept` — the part of the invariant about one future
* `ShutdownPoint.left` — what the shutdown has yet to do
* `ResolvesFutures` — the shutdown returns, and every future has an outcome by then

## Main results

* `isDone_of_returned` — no future returned before the shutdown is pending after it
* `inevitableFor_returned` — the shutdown returns
* `resolvesFutures` — the shutdown resolves every future returned before it, and changes none that
  was done
-/

namespace Shabdiz

open WorkerNetwork

variable {ω ι J V E : Type}

/-- Job `id` is done, or the iteration is still going to see it or to fail it. -/
def Swept (id : ι) (n : WorkerNetwork ω ι J V E) :
    Thread (LauncherOperation ω ι J) (LauncherCall ω ι J V E) → Prop
  | .running (.shutdown (.releasing todo)) => id ∈ todo ∨ (n.futures id).isDone = true
  | .running (.shutdown (.completing id' todo)) =>
    id = id' ∨ id ∈ todo ∨ (n.futures id).isDone = true
  | .running (.shutdown .returned) => (n.futures id).isDone = true
  | _ => True

section Step

variable {id : ι} {n n' : WorkerNetwork ω ι J V E}
  {t : Thread (LauncherOperation ω ι J) (LauncherCall ω ι J V E)}

theorem swept_of_unreleased {p : ShutdownPoint ι} (h : p.unreleased = true) :
    Swept id n (.running (.shutdown p)) := by
  cases p with
  | releasing todo => cases h
  | completing id' todo => cases h
  | returned => cases h
  | _ => trivial

theorem Swept.mono (h : Swept id n t)
    (hdone : (n.futures id).isDone = true → (n'.futures id).isDone = true) : Swept id n' t := by
  unfold Swept at h ⊢
  split at h
  · exact h.imp_right hdone
  · exact h.imp_right fun h => h.imp_right hdone
  · exact hdone h
  · trivial

variable [DecidableEq ω] [DecidableEq ι] [DecidableEq V] [DecidableEq E]

/-- **The step lemma.** What the iteration takes off its list it finds done, or is about to fail. -/
theorem Swept.step {i : ι} {answer : LauncherAnswer ω ι V E} {k k' : LauncherCall ω ι J V E}
    (h : Swept id n (.running k)) (hid : id ∈ n.idFutureMap)
    (hs : LauncherStep i answer n k n' k') : Swept id n' (.running k') := by
  cases hs with
  | leave hp hp' => exact swept_of_unreleased hp'
  | iterate => exact Or.inl hid
  | @skip id' todo hdone =>
    by_cases heq : id = id'
    · subst heq
      exact Or.inr hdone
    · exact h.imp_left (List.mem_erase_of_ne heq).mpr
  | @visit id' todo =>
    by_cases heq : id = id'
    · exact Or.inl heq
    · exact Or.inr (h.imp_left (List.mem_erase_of_ne heq).mpr)
  | @release id' todo =>
    have hgrows : WorkerNetwork.Grows n ((n.settle id' (.completedExceptionally
        (.exception unexposedLauncherException))).record (.released id')) :=
      (grows_settle _ _).trans (grows_record _)
    obtain rfl | h := h
    · refine Or.inr ?_
      rw [record_futures, settle_futures, Function.update_self]
      exact CompletableFuture.isDone_settle
    · exact h.imp_right hgrows.isDone
  | shutdownReturns => exact h.resolve_left (List.not_mem_nil)
  | _ => trivial

end Step

/-! ### What the shutdown has yet to do -/

namespace WorkerNetwork.ShutdownPoint

/-- The entries of `id_future_map` that the iteration still has to see. -/
def todo : ShutdownPoint ι → List ι
  | .releasing todo => todo
  | .completing _ todo => todo
  | _ => []

/-- What the shutdown has yet to do: its phases, and in the last one the entries to see and to
fail. -/
def left : ShutdownPoint ι → ℕ ×ₗ ℕ
  | .entry => toLex (9, 0)
  | .cancellingScanners => toLex (8, 0)
  | .killing => toLex (7, 0)
  | .closingHosts => toLex (6, 0)
  | .stoppingExecutors => toLex (5, 0)
  | .unexposing => toLex (4, 0)
  | .closingFactory => toLex (3, 0)
  | .closingManager => toLex (2, 0)
  | .releasing todo => toLex (1, 2 * todo.length)
  | .completing _ todo => toLex (1, 2 * todo.length + 1)
  | .returned => toLex (0, 0)
  | .thrown => toLex (0, 0)

/-- The call that the shutdown makes does not throw, and the iteration comes to an entry that it
still has to see. -/
def Proceeds (answer : LauncherAnswer ω ι V E) (p : ShutdownPoint ι) : Prop :=
  answer ≠ .throws ∧ ∀ id, answer = .visit id → id ∈ p.todo ∨ ∀ todo, p ≠ .releasing todo

end WorkerNetwork.ShutdownPoint

section Progress

variable {n n' : WorkerNetwork ω ι J V E} {answer : LauncherAnswer ω ι V E}
  {p p' : ShutdownPoint ι}

theorem leave_of_ne_throws (ha : answer ≠ .throws) : leave answer n p = some (n, p) := by
  cases answer <;> first | rfl | exact absurd rfl ha

variable [DecidableEq ι]

/-- The shutdown ends as thrown only if a call throws, and sees registered futures only. -/
theorem shutdown_todo (h : WorkerNetwork.shutdown answer n p = some (n', p'))
    (ha : answer ≠ .throws) (htodo : p.todo ⊆ n.idFutureMap) :
    p' ≠ .thrown ∧ p'.todo ⊆ n'.idFutureMap := by
  cases p with
  | releasing todo =>
    simp only [WorkerNetwork.shutdown] at h
    split at h
    · rename_i id
      split at h
      · obtain ⟨rfl, rfl⟩ := Prod.mk.inj (Option.some.inj h)
        have herase : todo.erase id ⊆ n.idFutureMap :=
          fun x hx => htodo (List.mem_of_mem_erase hx)
        split
        · exact ⟨by simp, herase⟩
        · exact ⟨by simp, herase⟩
      · cases h
    · split at h
      · obtain ⟨rfl, rfl⟩ := Prod.mk.inj (Option.some.inj h)
        exact ⟨by simp, List.nil_subset _⟩
      · cases h
  | completing id todo =>
    obtain ⟨rfl, rfl⟩ := Prod.mk.inj (Option.some.inj h)
    exact ⟨by simp, htodo⟩
  | returned => cases h
  | thrown => cases h
  | closingManager =>
    obtain ⟨rfl, rfl⟩ := Prod.mk.inj (Option.some.inj ((leave_of_ne_throws ha).symm.trans h))
    exact ⟨by simp, List.Subset.refl _⟩
  | _ =>
    obtain ⟨rfl, rfl⟩ := Prod.mk.inj (Option.some.inj ((leave_of_ne_throws ha).symm.trans h))
    exact ⟨by simp, List.nil_subset _⟩

/-- **The step lemma.** Every step of the shutdown brings its end closer. -/
theorem shutdown_left (h : WorkerNetwork.shutdown answer n p = some (n', p'))
    (hp : p.Proceeds answer) : p'.left < p.left := by
  obtain ⟨ha, hvisit⟩ := hp
  cases p with
  | releasing todo =>
    simp only [WorkerNetwork.shutdown] at h
    split at h
    · rename_i id
      have hid : id ∈ todo := (hvisit id rfl).resolve_right fun hne => hne todo rfl
      have hlength := List.length_erase_add_one hid
      split at h
      · obtain ⟨rfl, rfl⟩ := Prod.mk.inj (Option.some.inj h)
        split
        · exact Prod.Lex.toLex_lt_toLex.mpr (Or.inr ⟨rfl, by dsimp only; omega⟩)
        · exact Prod.Lex.toLex_lt_toLex.mpr (Or.inr ⟨rfl, by dsimp only; omega⟩)
      · cases h
    · split at h
      · obtain ⟨rfl, rfl⟩ := Prod.mk.inj (Option.some.inj h)
        exact Prod.Lex.toLex_lt_toLex.mpr (Or.inl Nat.zero_lt_one)
      · cases h
  | completing id todo =>
    obtain ⟨rfl, rfl⟩ := Prod.mk.inj (Option.some.inj h)
    exact Prod.Lex.toLex_lt_toLex.mpr (Or.inr ⟨rfl, Nat.lt_succ_self _⟩)
  | returned => cases h
  | thrown => cases h
  | _ =>
    obtain ⟨rfl, rfl⟩ := Prod.mk.inj (Option.some.inj ((leave_of_ne_throws ha).symm.trans h))
    exact Prod.Lex.toLex_lt_toLex.mpr (Or.inl (by dsimp only; omega))

/-- Until it has returned, the shutdown can take a step: it waits for no future. -/
theorem exists_shutdown (htodo : p.todo ⊆ n.idFutureMap) (hthrown : p ≠ .thrown)
    (hreturned : p ≠ .returned) :
    ∃ answer : LauncherAnswer ω ι V E, p.Proceeds answer ∧
      (answer = .go ∨ ∃ id, answer = .visit id) ∧
      (WorkerNetwork.shutdown answer n p).isSome = true := by
  cases p with
  | releasing todo =>
    cases todo with
    | nil => exact ⟨.go, ⟨by simp, by simp⟩, Or.inl rfl, rfl⟩
    | cons id todo =>
      refine ⟨.visit id, ⟨by simp, fun id' heq => ?_⟩, Or.inr ⟨id, rfl⟩, ?_⟩
      · obtain rfl := LauncherAnswer.visit.inj heq
        exact Or.inl List.mem_cons_self
      · simp only [WorkerNetwork.shutdown]
        rw [if_pos (htodo List.mem_cons_self)]
        rfl
  | returned => exact absurd rfl hreturned
  | thrown => exact absurd rfl hthrown
  | _ => exact ⟨.go, ⟨by simp, by simp⟩, Or.inl rfl, rfl⟩

end Progress

variable [DecidableEq ω] [DecidableEq ι] [DecidableEq J] [DecidableEq V] [DecidableEq E]

/-- **The run lemma.** Whatever the other calls, the workers and the RPC layer do, the iteration
misses no future that was registered before the shutdown began. -/
theorem swept_of_run {c c' : NetworkConfig ω ι J V E} (h : (jobMachine ω ι J V E).Reachable c)
    (hrun : (jobMachine ω ι J V E).Run c c') {k : ι}
    (hready : c.launcher.thread k = .ready .shutdown) {id : ι} (hid : id ∈ c.network.idFutureMap) :
    Swept id c'.network (c'.launcher.thread k) := by
  refine hrun.invariant (I := fun d => Swept id d.network (d.launcher.thread k)) ?_ ?_
  · rw [hready]
    trivial
  · intro d a d' hd hswept _ hstep
    have hid' : id ∈ d.network.idFutureMap := (grows_of_run h hd).network.registered id hid
    have hgrows : WorkerNetwork.Grows d.network d'.network :=
      ((networkStep_of_step hstep).grows (bookkeeping_of_reachable (h.trans hd))).network
    obtain heq | ⟨o, -, heq, -⟩ | ⟨answer, j, j', hj, heq, hn⟩ :=
      (networkStep_of_step hstep).thread_cases k
    · rw [heq]
      exact hswept.mono hgrows.isDone
    · rw [heq]
      cases o <;> trivial
    · rw [hj] at hswept
      rw [heq]
      exact hswept.step hid' hn

/-- The shutdown misses no future that `Worker.submit` had returned before it began. -/
theorem isDone_of_returned {c c' : NetworkConfig ω ι J V E}
    (h : (jobMachine ω ι J V E).Reachable c) (hrun : (jobMachine ω ι J V E).Run c c') {k : ι}
    (hready : c.launcher.thread k = .ready .shutdown)
    (hreturned : c'.launcher.thread k = .running (.shutdown .returned)) {id : ι}
    (hid : c.network.returned id = true) : (c'.network.futures id).isDone = true := by
  have hb := bookkeeping_of_reachable h id
  obtain ⟨w, job, hthread⟩ := hb.returned hid
  have hswept := swept_of_run h hrun hready (hb.registered w job _ hthread (by simp))
  rw [hreturned] at hswept
  exact hswept

/-! ### The shutdown returns -/

/-- The step is one of call `k` on the launcher. -/
def NetworkAction.isOf (k : ι) : NetworkAction ω ι V E → Bool
  | .launcher i _ => i = k
  | _ => false

/-- No call that the shutdown `k` makes throws. -/
def NoneThrows (k : ι) (c : NetworkConfig ω ι J V E) (a : NetworkAction ω ι V E) : Prop :=
  ∀ p, c.launcher.thread k = .running (.shutdown p) → a ≠ .launcher k .throws

/-- No call that the shutdown `k` makes throws, and its iteration comes to an entry that it still
has to see. -/
def ShutdownProceeds (k : ι) (c : NetworkConfig ω ι J V E) (a : NetworkAction ω ι V E) : Prop :=
  ∀ answer p, a = .launcher k answer → c.launcher.thread k = .running (.shutdown p) →
    p.Proceeds answer

omit [DecidableEq ω] [DecidableEq ι] [DecidableEq J] [DecidableEq V] [DecidableEq E] in
theorem ShutdownProceeds.noneThrows {k : ι} {c : NetworkConfig ω ι J V E}
    {a : NetworkAction ω ι V E} (h : ShutdownProceeds k c a) : NoneThrows k c a := by
  rintro p hp rfl
  exact (h .throws p rfl hp).1 rfl

/-- Call `k` is the shutdown, which has not thrown. -/
def ShuttingDown (k : ι) (c : NetworkConfig ω ι J V E) : Prop :=
  c.launcher.thread k = .ready .shutdown ∨
    ∃ p, c.launcher.thread k = .running (.shutdown p) ∧ p ≠ .thrown ∧
      p.todo ⊆ c.network.idFutureMap

/-- What the shutdown `k` has yet to do. -/
def shutdownLeft (k : ι) (c : NetworkConfig ω ι J V E) : ℕ ×ₗ ℕ :=
  match c.launcher.thread k with
  | .running (.shutdown p) => p.left
  | _ => toLex (10, 0)

section Steps

variable {c c' : NetworkConfig ω ι J V E} {a : NetworkAction ω ι V E} {k : ι}

/-- The others do not move the shutdown. -/
theorem thread_of_isOf (h : NetworkStep c a c') (ha : a.isOf k = false) :
    c'.launcher.thread k = c.launcher.thread k := by
  have hne {i answer} (hi : a = .launcher i answer) : k ≠ i := by
    rintro rfl
    simp [hi, NetworkAction.isOf] at ha
  cases h with
  | start ho => exact Function.update_of_ne (hne rfl) _ _
  | launcher hanswered hk hn => exact Function.update_of_ne (hne rfl) _ _
  | _ => rfl

omit [DecidableEq ω] [DecidableEq J] [DecidableEq V] [DecidableEq E] in
/-- The action of a step of the shutdown. -/
theorem exists_answer (ha : a.isOf k = true) : ∃ answer, a = .launcher k answer := by
  cases a with
  | launcher i answer =>
    obtain rfl : i = k := by simpa [NetworkAction.isOf] using ha
    exact ⟨answer, rfl⟩
  | _ => cases ha

/-- A step of the shutdown, from before it begins or from a control point of it. -/
theorem shutdown_cases {answer : LauncherAnswer ω ι V E} (hc : ShuttingDown k c)
    (h : (jobMachine ω ι J V E).step c (.launcher k answer) = some c') :
    (c.launcher.thread k = .ready .shutdown ∧
      c'.launcher.thread k = .running (.shutdown .entry)) ∨
    ∃ p p', c.launcher.thread k = .running (.shutdown p) ∧
      WorkerNetwork.shutdown answer c.network p = some (c'.network, p') ∧
      c'.launcher.thread k = .running (.shutdown p') := by
  simp only [jobMachine] at h
  split at h
  · obtain ⟨launcher, hl, rfl⟩ := Option.map_eq_some_iff.mp h
    obtain ⟨o, ho, rfl⟩ | ⟨call, n', call', hcall, hn, rfl⟩ := Interleaving.step_cases hl
    · obtain hready | ⟨p, hp, -⟩ := hc
      · obtain rfl := Thread.ready.inj (ho.symm.trans hready)
        exact Or.inl ⟨hready, Function.update_self _ _ _⟩
      · cases ho.symm.trans hp
    · obtain hready | ⟨p, hp, -⟩ := hc
      · cases hcall.symm.trans hready
      · obtain rfl := Thread.running.inj (hcall.symm.trans hp)
        obtain ⟨⟨n₁, p'⟩, hs, heq⟩ := Option.map_eq_some_iff.mp hn
        obtain ⟨rfl, rfl⟩ := Prod.mk.inj heq
        exact Or.inr ⟨p, p', hp, hs, Function.update_self _ _ _⟩
  · cases h

/-- **The step lemma.** The shutdown goes on, whoever takes a step, unless a call of it throws. -/
theorem ShuttingDown.step (hc : ShuttingDown k c) (hb : Bookkeeping c) (ha : NoneThrows k c a)
    (h : (jobMachine ω ι J V E).step c a = some c') : ShuttingDown k c' := by
  have hs := networkStep_of_step h
  cases hown : a.isOf k with
  | false =>
    have hgrows := (hs.grows hb).network.registered
    rw [ShuttingDown, thread_of_isOf hs hown]
    exact hc.imp_right fun ⟨p, hp, hthrown, htodo⟩ =>
      ⟨p, hp, hthrown, fun id hid => hgrows id (htodo hid)⟩
  | true =>
    obtain ⟨answer, rfl⟩ := exists_answer hown
    obtain ⟨-, hentry⟩ | ⟨p, p', hp, hshutdown, hp'⟩ := shutdown_cases hc h
    · exact Or.inr ⟨_, hentry, by simp, List.nil_subset _⟩
    · have htodo : p.todo ⊆ c.network.idFutureMap := by
        obtain hready | ⟨q, hq, -, htodo⟩ := hc
        · cases hp.symm.trans hready
        · obtain rfl := LauncherCall.shutdown.inj (Thread.running.inj (hp.symm.trans hq))
          exact htodo
      exact Or.inr ⟨p', hp', shutdown_todo hshutdown (fun h => ha p hp (congrArg _ h)) htodo⟩

/-- Every step of the shutdown brings its end closer. -/
theorem shutdownLeft_lt {answer : LauncherAnswer ω ι V E} (hc : ShuttingDown k c)
    (hP : ShutdownProceeds k c (.launcher k answer))
    (h : (jobMachine ω ι J V E).step c (.launcher k answer) = some c') :
    shutdownLeft k c' < shutdownLeft k c := by
  obtain ⟨hready, hentry⟩ | ⟨p, p', hp, hshutdown, hp'⟩ := shutdown_cases hc h
  · simp only [shutdownLeft, hready, hentry, ShutdownPoint.left]
    exact Prod.Lex.toLex_lt_toLex.mpr (Or.inl (Nat.lt_succ_self 9))
  · simp only [shutdownLeft, hp, hp']
    exact shutdown_left hshutdown (hP answer p rfl hp)

/-- The shutdown can take a step until it has returned. -/
theorem exists_shutdownStep (hc : ShuttingDown k c)
    (hreturned : c.launcher.thread k ≠ .running (.shutdown .returned)) :
    ∃ a c', a.isOf k = true ∧ ShutdownProceeds k c a ∧
      (jobMachine ω ι J V E).step c a = some c' := by
  obtain hready | ⟨p, hp, hthrown, htodo⟩ := hc
  · refine ⟨.launcher k .go,
      { c with launcher :=
        ⟨c.network, Function.update c.launcher.thread k (.running (.shutdown .entry))⟩ },
      by simp [NetworkAction.isOf], ?_, ?_⟩
    · intro answer p _ hp
      cases hready.symm.trans hp
    · simp only [jobMachine, shutdownAnswered, Interleaving.machine, hready]
      rfl
  · have hne : p ≠ .returned := fun h => hreturned (h ▸ hp)
    obtain ⟨answer, hP, hanswer, hsome⟩ := exists_shutdown htodo hthrown hne
    obtain ⟨⟨n', p'⟩, hshutdown⟩ := Option.isSome_iff_exists.mp hsome
    have hanswered : shutdownAnswered c k answer = true := by
      obtain rfl | ⟨id, rfl⟩ := hanswer <;> rfl
    have hnext : (launcherCalls ω ι J V E).next k answer c.network (.shutdown p) =
        some (n', .shutdown p') := by
      simp [LauncherCall.next, hshutdown]
    refine ⟨.launcher k answer,
      { c with launcher := ⟨n', Function.update c.launcher.thread k (.running (.shutdown p'))⟩ },
      by simp [NetworkAction.isOf], ?_, ?_⟩
    · rintro answer' q heq hq
      obtain ⟨-, rfl⟩ := NetworkAction.launcher.inj heq
      obtain rfl := LauncherCall.shutdown.inj (Thread.running.inj (hp.symm.trans hq))
      exact hP
    · simp only [jobMachine]
      rw [if_pos hanswered, Interleaving.step_running hp hnext]
      rfl

end Steps

/-- Unless a call of it throws, the shutdown is going on or over in every state that a run leads
to. -/
theorem shuttingDown_of_run {c c' : NetworkConfig ω ι J V E} {k : ι}
    (h : (jobMachine ω ι J V E).Reachable c)
    (hrun : (jobMachine ω ι J V E).RunOf (NoneThrows k) c c')
    (hready : c.launcher.thread k = .ready .shutdown) : ShuttingDown k c' := by
  refine hrun.invariant (I := ShuttingDown k) (Or.inl hready) ?_
  intro d a d' hd hdown ha hstep
  exact hdown.step (bookkeeping_of_reachable (h.trans hd.run)) ha hstep

/-- **The shutdown returns**, whatever steps of others come between its own, once its iteration
comes to no more futures than it still has to see. -/
theorem inevitableFor_returned {c : NetworkConfig ω ι J V E} {k : ι}
    (h : (jobMachine ω ι J V E).Reachable c) (hc : ShuttingDown k c) :
    (jobMachine ω ι J V E).InevitableFor (ShutdownProceeds k) (NetworkAction.isOf k)
      (fun d => d.launcher.thread k = .running (.shutdown .returned)) c := by
  refine Machine.inevitableFor_of_measure
    (I := fun d => (jobMachine ω ι J V E).Reachable d ∧ ShuttingDown k d) (shutdownLeft k)
    (fun d hd => exists_shutdownStep hd.2) ?_ ?_ ⟨h, hc⟩
  · intro d a d' hd hP hother hstep
    have hthread := thread_of_isOf (networkStep_of_step hstep) hother
    refine ⟨⟨hd.1.trans (Machine.RunOf.refl.tail trivial hstep),
      hd.2.step (bookkeeping_of_reachable hd.1) hP.noneThrows hstep⟩, ?_⟩
    rw [shutdownLeft, shutdownLeft, hthread]
  · intro d a d' hd _ hP hown hstep
    obtain ⟨answer, rfl⟩ := exists_answer hown
    exact ⟨⟨hd.1.trans (Machine.RunOf.refl.tail trivial hstep),
      hd.2.step (bookkeeping_of_reachable hd.1) hP.noneThrows hstep⟩, shutdownLeft_lt hd.2 hP hstep⟩

/-! ### Every pending future is resolved -/

/-- No other call, worker or callback completes future `id`. -/
def OthersLeave (k id : ι) (c : NetworkConfig ω ι J V E) (a : NetworkAction ω ι V E) : Prop :=
  a.isOf k = true ∨ ∀ c', (jobMachine ω ι J V E).step c a = some c' →
    c'.network.futures id = c.network.futures id

/-- The shutdown `k` of a network, about to begin in `c`, resolves the futures. -/
structure ResolvesFutures (k : ι) (c : NetworkConfig ω ι J V E) : Prop where
  /-- However far it has got, and whatever it has seen, the shutdown returns. -/
  returns : ∀ c', (jobMachine ω ι J V E).RunOf (NoneThrows k) c c' →
    (jobMachine ω ι J V E).InevitableFor (ShutdownProceeds k) (NetworkAction.isOf k)
      (fun d => d.launcher.thread k = .running (.shutdown .returned)) c'
  /-- When it has returned, every future that `Worker.submit` had returned before is done. -/
  isDone : ∀ c', (jobMachine ω ι J V E).Run c c' →
    c'.launcher.thread k = .running (.shutdown .returned) →
    ∀ id, c.network.returned id = true → (c'.network.futures id).isDone = true
  /-- A pending future that nobody else completes ends in the exception of the shutdown. -/
  released : ∀ id c', (jobMachine ω ι J V E).RunOf (OthersLeave k id) c c' →
    c'.launcher.thread k = .running (.shutdown .returned) → c.network.returned id = true →
    (c.network.futures id).isDone = false →
    (c'.network.futures id).outcome =
      some (.completedExceptionally (.exception unexposedLauncherException))
  /-- Every future that was done keeps its outcome. -/
  outcome : ∀ c', (jobMachine ω ι J V E).Run c c' → ∀ id o,
    (c.network.futures id).outcome = some o → (c'.network.futures id).outcome = some o

omit [DecidableEq J] in
theorem futures_of_shutdown {n n' : WorkerNetwork ω ι J V E} {answer : LauncherAnswer ω ι V E}
    {i id : ι} {p : ShutdownPoint ι} {k' : LauncherCall ω ι J V E}
    (h : LauncherStep i answer n (.shutdown p) n' k') :
    n'.futures id = n.futures id ∨ n'.futures id =
      (n.futures id).settle (.completedExceptionally (.exception unexposedLauncherException)) := by
  cases h with
  | @release id' todo =>
    rw [record_futures, settle_futures]
    by_cases hid : id = id'
    · subst hid
      exact Or.inr (Function.update_self _ _ _)
    · exact Or.inl (Function.update_of_ne hid _ _)
  | _ => exact Or.inl rfl

/-- The shutdown's own steps complete a future with its exception only. -/
theorem futures_of_isOf {c c' : NetworkConfig ω ι J V E} {a : NetworkAction ω ι V E} {k : ι}
    (hs : NetworkStep c a c') (hk : c.operation k = .shutdown) (ha : a.isOf k = true) (id : ι) :
    c'.network.futures id = c.network.futures id ∨ c'.network.futures id =
      (c.network.futures id).settle
        (.completedExceptionally (.exception unexposedLauncherException)) := by
  obtain ⟨answer, rfl⟩ := exists_answer ha
  cases hs with
  | start ho => exact Or.inl rfl
  | launcher hanswered hcall hn =>
    rename_i call _ _
    rw [operation_of_thread hcall] at hk
    cases call with
    | shutdown p => exact futures_of_shutdown hn
    | _ => cases hk

/-- **The run lemma.** While nobody else completes it, a future is pending or has the exception of
the shutdown. -/
theorem outcome_of_othersLeave {c c' : NetworkConfig ω ι J V E} {k id : ι}
    (h : (jobMachine ω ι J V E).Reachable c)
    (hrun : (jobMachine ω ι J V E).RunOf (OthersLeave k id) c c')
    (hk : c.operation k = .shutdown) (hpending : (c.network.futures id).outcome = none) :
    (c'.network.futures id).outcome = none ∨ (c'.network.futures id).outcome =
      some (.completedExceptionally (.exception unexposedLauncherException)) := by
  refine hrun.invariant (I := fun d => (d.network.futures id).outcome = none ∨
    (d.network.futures id).outcome =
      some (.completedExceptionally (.exception unexposedLauncherException)))
    (Or.inl hpending) ?_
  intro d a d' hd hout ha hstep
  have hsame (heq : d'.network.futures id = d.network.futures id) : _ := heq ▸ hout
  obtain ha | ha := ha
  · have hop := ((grows_of_run h hd.run).operation k).trans hk
    obtain heq | heq := futures_of_isOf (networkStep_of_step hstep) hop ha id
    · exact hsame heq
    · rw [heq]
      refine Or.inr (CompletableFuture.settle_outcome_eq_some.mpr ?_)
      exact hout.elim (fun hnone => Or.inr ⟨hnone, rfl⟩) Or.inl
  · exact hsame (ha d' hstep)

/-- **The shutdown of a network resolves every pending future.** Whatever callbacks, cancellations,
submissions and failures of submissions come between its steps, it returns unless a call of it
throws, and every future that `Worker.submit` had returned before it began is done by then: by the
exception of the shutdown, if nobody else completes it. A future that was done keeps its outcome. -/
theorem resolvesFutures {c : NetworkConfig ω ι J V E} (h : (jobMachine ω ι J V E).Reachable c)
    {k : ι} (hready : c.launcher.thread k = .ready .shutdown) : ResolvesFutures k c where
  returns c' hrun := inevitableFor_returned (h.trans hrun.run) (shuttingDown_of_run h hrun hready)
  isDone c' hrun hreturned id hid := isDone_of_returned h hrun hready hreturned hid
  released id c' hrun hreturned hid hpending := by
    have hdone := isDone_of_returned h hrun.run hready hreturned hid
    have hk : c.operation k = .shutdown := by rw [NetworkConfig.operation, hready]
    refine (outcome_of_othersLeave h hrun hk (Option.not_isSome_iff_eq_none.mp ?_)).resolve_left ?_
    · exact fun hsome => by simp [CompletableFuture.isDone, hsome] at hpending
    · exact fun hnone => by simp [CompletableFuture.isDone, hnone] at hdone
  outcome c' hrun := (grows_of_run h hrun).network.outcome

/-! ### A shutdown -/

section Example

/-- Call `0` submits a job, call `1` shuts the network down. -/
def submitShutdown : NetworkConfig Unit Nat Unit Unit Unit where
  launcher.shared := .new
  launcher.thread i := .ready (if i = 0 then .submit () () else .shutdown)
  workers _ := ⟨.new, fun _ => .ready .run⟩

theorem submitShutdown_init : (jobMachine Unit Nat Unit Unit Unit).init submitShutdown :=
  ⟨⟨rfl, fun _ => ⟨_, rfl⟩⟩, fun _ => ⟨rfl, fun _ => ⟨_, rfl⟩⟩⟩

/-- The future is returned and pending when the shutdown begins. The iteration comes to it, and the
shutdown completes it. -/
theorem resolvesFutures_submitShutdown :
    ∃ c c' : NetworkConfig Unit Nat Unit Unit Unit, ResolvesFutures 1 c ∧
      c.network.returned 0 = true ∧ (c.network.futures 0).isDone = false ∧
      (jobMachine Unit Nat Unit Unit Unit).RunOf (fun _ a => a.isOf 1 = true) c c' ∧
      c'.launcher.thread 1 = .running (.shutdown .returned) ∧
      (c'.network.futures 0).outcome =
        some (.completedExceptionally (.exception unexposedLauncherException)) := by
  obtain ⟨c, c', hrun, hrun', hc⟩ :=
    (jobMachine Unit Nat Unit Unit Unit).exists_run_runOf_of_execOf (fun _ a => a.isOf 1 = true)
      submitShutdown (List.replicate 4 (.launcher 0 .go))
      (List.replicate 9 (.launcher 1 .go) ++
        [.launcher 1 (.visit 0), .launcher 1 .go, .launcher 1 .go])
      (fun c c' => c.network.returned 0 = true ∧ (c.network.futures 0).isDone = false ∧
        c.launcher.thread 1 = .ready .shutdown ∧
        c'.launcher.thread 1 = .running (.shutdown .returned)) (by decide)
  obtain ⟨hid, hpending, hready, hreturned⟩ := of_decide_eq_true hc
  have hresolves : ResolvesFutures 1 c := resolvesFutures ⟨_, submitShutdown_init, hrun⟩ hready
  exact ⟨c, c', hresolves, hid, hpending, hrun', hreturned,
    hresolves.released 0 c' (hrun'.mono fun _ _ ha => Or.inl ha) hreturned hid hpending⟩

end Example

end Shabdiz
