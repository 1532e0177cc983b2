import Shabdiz.Concurrency.History
import Shabdiz.Concurrency.Interleaving

/-!
# Assembling a Chord ring

`assembleRing` submits one task for each descriptor of the network. A task takes a random member
of `joined_nodes`, or puts its own descriptor there if the set is empty, lets its node join the node
of the member, and adds its descriptor to the set. `TimeoutExecutorService.retry` repeats a task
that throws, and waits for it no longer than its timeout; the task may then still be going on.

`getRandomJoinedNode` is synchronized on the experiment. The descriptor is added under the monitor
of the `Callable`, which is another object, so the two do not exclude each other; each of them is
one step here. The set is a list in the order in which its members were added, and the generator
may return any index in it, so the order in which a hash set is gone through does not matter.

## Main definitions

* `RingState`, `JoinPoint`, `JoinCall` — the set of joined nodes, and where a task is
* `RingState.getRandomJoinedNode`, `RingState.joinWithRetry` — the steps of a task
* `ringAssembly` — the tasks, interleaved
* `RingRooted`, `RingAssembled` — what is true of the joins at any time, and once all have returned

## Main results

* `reaches_first` — each of a list reaches the first if it is linked to an earlier one
* `assembleRing_connects` — every member reaches the first one that there was
-/

namespace Shabdiz

/-! ### Lists whose members are linked to earlier ones -/

section Linked

variable {α : Type*} {r : α → α → Prop} {l : List α} {first : α}

/-- **Back to the first.** If every member of a list but the first is linked to one that comes
before it, then the first is reached from each. -/
theorem reaches_first (hl : l.Nodup) (hfirst : l.head? = some first)
    (hlink : ∀ a ∈ l, a ≠ first → ∃ b, r a b ∧ InOrder [b, a] l) :
    ∀ a ∈ l, Relation.ReflTransGen r a first := by
  induction l using List.reverseRecOn with
  | nil => cases hfirst
  | append_singleton l x ih =>
    rcases List.eq_nil_or_concat' l with rfl | ⟨l₀, y, hly⟩
    · intro a ha
      obtain rfl : x = first := by simpa using hfirst
      obtain rfl : a = x := by simpa using ha
      exact .refl
    have hne : l ≠ [] := by simp [hly]
    have hx : x ∉ l := by
      intro hx
      exact (List.nodup_append.mp hl).2.2 x hx x (List.mem_singleton_self x) rfl
    have hhead : l.head? = some first := by
      rw [← hfirst, List.head?_append_of_ne_nil l hne]
    have hbefore : ∀ a ∈ l, Relation.ReflTransGen r a first := by
      refine ih (List.nodup_append.mp hl).1 hhead fun a ha hne => ?_
      obtain ⟨b, hab, horder⟩ := hlink a (List.mem_append_left _ ha) hne
      refine ⟨b, hab, (inOrder_pair_concat.mp horder).resolve_right ?_⟩
      rintro ⟨-, rfl⟩
      exact hx ha
    intro a ha
    rcases List.mem_append.mp ha with ha | ha
    · exact hbefore a ha
    · obtain rfl : a = x := List.mem_singleton.mp ha
      have hxf : a ≠ first := by
        rintro rfl
        exact hx (List.mem_of_head? hhead)
      obtain ⟨b, hab, horder⟩ := hlink a (by simp) hxf
      have hb : b ∈ l := by
        rcases inOrder_pair_concat.mp horder with h | h
        · exact h.mem (by simp)
        · exact h.1
      exact .head hab (hbefore b hb)

end Linked

/-! ### The tasks -/

/-- What the tasks share. -/
structure RingState (δ : Type) where
  joinedNodes : List δ
  /-- The joins that have returned: who joined, and through whom. No code reads it. -/
  joins : List (δ × δ)
deriving DecidableEq

/-- The control points of a task. -/
inductive JoinPoint (δ : Type) where
  /-- Tests whether to call the task, for the first time or again. -/
  | test
  /-- Calls `getRandomJoinedNode`. -/
  | choose
  /-- Calls `join` of the joiner with the joinee. -/
  | join (knownNode : δ)
  /-- The joiner has joined, and is still to be added to the set. -/
  | add (knownNode : δ)
  | returned (knownNode : δ)
  | threw
deriving DecidableEq

/-- What the caller of `retry` has got. -/
inductive JoinResult (δ : Type) where
  | waiting
  | returned (knownNode : δ)
  | threw
deriving DecidableEq

/-- A task, and the call of `retry` that has submitted it. -/
structure JoinCall (δ : Type) where
  task : JoinPoint δ
  result : JoinResult δ
deriving DecidableEq

/-- What happens next to a descriptor's task. -/
inductive JoinEvent where
  /-- The task goes on; the generator, if it is asked, returns `index`, and the remote call, if it
  is made, returns or throws. -/
  | task (index : ℕ) (joins : Bool)
  /-- The thread of the task is found to be interrupted. -/
  | interrupted
  /-- The caller of `retry` waits no longer. -/
  | timeout
  /-- The caller gets what the task has ended with. -/
  | result
deriving DecidableEq

variable {δ : Type}

namespace RingState

/-- A member at the index that the generator returns, which is less than the size of the set; or
the joiner itself, which becomes the first member. -/
def getRandomJoinedNode (joiner : δ) (candidateIndex : ℕ) (s : RingState δ) :
    Option (RingState δ × δ) :=
  if s.joinedNodes = [] then some ({ s with joinedNodes := [joiner] }, joiner)
  else s.joinedNodes[candidateIndex]?.map fun joinedNode => (s, joinedNode)

variable [DecidableEq δ]

/-- Add a node to the set of those that have joined. -/
def addJoined (joiner : δ) (s : RingState δ) : RingState δ :=
  if joiner ∈ s.joinedNodes then s else { s with joinedNodes := s.joinedNodes ++ [joiner] }

/-- The next step of a join task: test the ring, choose a joined node at random, join through it,
and try again if that fails. -/
def nextTask (joiner : δ) (index : ℕ) (joins : Bool) (s : RingState δ) :
    JoinPoint δ → Option (RingState δ × JoinPoint δ)
  | .test => some (s, .choose)
  | .choose => (s.getRandomJoinedNode joiner index).map fun r => (r.1, .join r.2)
  | .join knownNode =>
    if joins then some ({ s with joins := s.joins ++ [(joiner, knownNode)] }, .add knownNode)
    else some (s, .test)
  | .add knownNode => some (s.addJoined joiner, .returned knownNode)
  | .returned _ | .threw => none

/-- One step of the task of `joiner`, or of the call that waits for it. -/
def joinWithRetry (joiner : δ) (e : JoinEvent) (s : RingState δ) (k : JoinCall δ) :
    Option (RingState δ × JoinCall δ) :=
  match e with
  | .task index joins => (s.nextTask joiner index joins k.task).map fun r => (r.1, ⟨r.2, k.result⟩)
  | .interrupted =>
    match k.task with
    | .test | .join _ => some (s, { k with task := .threw })
    | _ => none
  | .timeout => if k.result = .waiting then some (s, { k with result := .threw }) else none
  | .result =>
    if k.result = .waiting then
      match k.task with
      | .returned knownNode => some (s, { k with result := .returned knownNode })
      | .threw => some (s, { k with result := .threw })
      | _ => none
    else none

/-- One node joined through another. -/
def Joined (s : RingState δ) (joiner knownNode : δ) : Prop := (joiner, knownNode) ∈ s.joins

end RingState

variable [DecidableEq δ]

/-- The tasks of `assembleRing`, one for each descriptor, after `joined_nodes` was cleared. -/
def ringAssembly (δ : Type) [DecidableEq δ] :
    Interleaving δ (RingState δ) Unit (JoinCall δ) JoinEvent where
  initial := ⟨[], []⟩
  start _ := ⟨.test, .waiting⟩
  next i e s k := s.joinWithRetry i e k
  op _ := ()
  op_start _ := rfl
  op_next _ := rfl

/-- The join of a descriptor has returned, to the task that `assembleRing` waits for. -/
def HasJoined (c : Config δ (RingState δ) Unit (JoinCall δ)) (d : δ) : Prop :=
  ∃ task knownNode, c.thread d = .running ⟨task, .returned knownNode⟩

/-- Every member of the set has joined through a member that was there before it, but for the
first; every join went to a member, and only the first can have joined itself. -/
structure RingRooted (s : RingState δ) : Prop where
  reachesFirst : ∀ d ∈ s.joinedNodes, ∃ first, s.joinedNodes.head? = some first ∧
    Relation.ReflTransGen s.Joined d first
  joineesAreMembers : ∀ d knownNode, s.Joined d knownNode → knownNode ∈ s.joinedNodes
  earlier : ∀ d knownNode, s.Joined d knownNode → d ∈ s.joinedNodes →
    s.joinedNodes.head? = some d ∨ InOrder [knownNode, d] s.joinedNodes
  selfJoin : ∀ d, s.Joined d d → s.joinedNodes.head? = some d

/-- Every node has joined once, and is connected to the first. -/
structure RingAssembled (s : RingState δ) : Prop where
  joinedOnce : ∀ d, ∃ knownNode, s.joins.filter (·.1 = d) = [(d, knownNode)]
  connected : ∀ d, ∃ first, s.joinedNodes.head? = some first ∧
    Relation.ReflTransGen s.Joined d first

/-! ### What each step does -/

section Steps

variable {s s' : RingState δ} {p p' : JoinPoint δ} {k k' : JoinCall δ} {i d knownNode : δ}
  {e : JoinEvent}

/-- The steps of the task of `i`. -/
inductive JoinStep (i : δ) : RingState δ → JoinPoint δ → RingState δ → JoinPoint δ → Prop where
  | test (s : RingState δ) : JoinStep i s .test s .choose
  | first (s : RingState δ) (h : s.joinedNodes = []) :
    JoinStep i s .choose { s with joinedNodes := s.joinedNodes ++ [i] } (.join i)
  | member (s : RingState δ) (knownNode : δ) (h : knownNode ∈ s.joinedNodes) :
    JoinStep i s .choose s (.join knownNode)
  | joined (s : RingState δ) (knownNode : δ) :
    JoinStep i s (.join knownNode) { s with joins := s.joins ++ [(i, knownNode)] } (.add knownNode)
  | failed (s : RingState δ) (knownNode : δ) : JoinStep i s (.join knownNode) s .test
  | added (s : RingState δ) (knownNode : δ) (h : i ∉ s.joinedNodes) :
    JoinStep i s (.add knownNode) { s with joinedNodes := s.joinedNodes ++ [i] }
      (.returned knownNode)
  | kept (s : RingState δ) (knownNode : δ) (h : i ∈ s.joinedNodes) :
    JoinStep i s (.add knownNode) s (.returned knownNode)
  | interrupted (s : RingState δ) (p : JoinPoint δ)
    (h : p = .test ∨ ∃ knownNode, p = .join knownNode) : JoinStep i s p s .threw

theorem joinStep_of_nextTask {index : ℕ} {joins : Bool}
    (h : s.nextTask i index joins p = some (s', p')) : JoinStep i s p s' p' := by
  cases p with
  | test =>
    obtain ⟨rfl, rfl⟩ := Prod.mk.inj (Option.some.inj h)
    exact .test s
  | choose =>
    obtain ⟨⟨t, knownNode⟩, ht, hr⟩ := Option.map_eq_some_iff.mp h
    obtain ⟨rfl, rfl⟩ := Prod.mk.inj hr
    rw [RingState.getRandomJoinedNode] at ht
    split at ht
    · next hempty =>
      obtain ⟨rfl, rfl⟩ := Prod.mk.inj (Option.some.inj ht)
      have hfirst := JoinStep.first (i := i) s hempty
      rw [hempty] at hfirst
      exact hfirst
    · obtain ⟨node, hnode, hr⟩ := Option.map_eq_some_iff.mp ht
      obtain ⟨rfl, rfl⟩ := Prod.mk.inj hr
      exact .member s node (List.mem_of_getElem? hnode)
  | join knownNode =>
    rw [RingState.nextTask] at h
    split at h
    · obtain ⟨rfl, rfl⟩ := Prod.mk.inj (Option.some.inj h)
      exact .joined s knownNode
    · obtain ⟨rfl, rfl⟩ := Prod.mk.inj (Option.some.inj h)
      exact .failed s knownNode
  | add knownNode =>
    obtain ⟨rfl, rfl⟩ := Prod.mk.inj (Option.some.inj h)
    by_cases hi : i ∈ s.joinedNodes
    · rw [RingState.addJoined, if_pos hi]
      exact .kept s knownNode hi
    · rw [RingState.addJoined, if_neg hi]
      exact .added s knownNode hi
  | returned knownNode => cases h
  | threw => cases h

/-- A step is one of the task, or one of the call that waits for it, which gets a node only from a
task that has returned it. -/
theorem joinWithRetry_cases (h : s.joinWithRetry i e k = some (s', k')) :
    (JoinStep i s k.task s' k'.task ∧ k'.result = k.result) ∨
      s' = s ∧ k'.task = k.task ∧
        ∀ knownNode, k'.result = .returned knownNode → k.task = .returned knownNode := by
  cases e with
  | task index joins =>
    obtain ⟨⟨t, q⟩, ht, hr⟩ := Option.map_eq_some_iff.mp h
    obtain ⟨rfl, rfl⟩ := Prod.mk.inj hr
    exact .inl ⟨joinStep_of_nextTask ht, rfl⟩
  | interrupted =>
    refine .inl ?_
    simp only [RingState.joinWithRetry] at h
    split at h
    · next hp =>
      obtain ⟨rfl, rfl⟩ := Prod.mk.inj (Option.some.inj h)
      exact ⟨.interrupted _ _ (.inl hp), rfl⟩
    · next knownNode hp =>
      obtain ⟨rfl, rfl⟩ := Prod.mk.inj (Option.some.inj h)
      exact ⟨.interrupted _ _ (.inr ⟨knownNode, hp⟩), rfl⟩
    · cases h
  | timeout =>
    simp only [RingState.joinWithRetry] at h
    split at h
    · obtain ⟨rfl, rfl⟩ := Prod.mk.inj (Option.some.inj h)
      exact .inr ⟨rfl, rfl, fun _ hr => by cases hr⟩
    · cases h
  | result =>
    simp only [RingState.joinWithRetry] at h
    split at h
    · split at h
      · next knownNode hp =>
        obtain ⟨rfl, rfl⟩ := Prod.mk.inj (Option.some.inj h)
        refine .inr ⟨rfl, rfl, fun node hr => ?_⟩
        rw [hp, JoinResult.returned.inj hr]
      · obtain ⟨rfl, rfl⟩ := Prod.mk.inj (Option.some.inj h)
        exact .inr ⟨rfl, rfl, fun _ hr => by cases hr⟩
      · cases h
    · cases h

/-- A task adds no other descriptor than its own, and lets no other node join. -/
theorem JoinStep.frame (h : JoinStep i s p s' p') :
    (s'.joinedNodes = s.joinedNodes ∨ s'.joinedNodes = s.joinedNodes ++ [i]) ∧
      ∀ j, j ≠ i → s'.joins.filter (·.1 = j) = s.joins.filter (·.1 = j) := by
  cases h with
  | first => exact ⟨.inr rfl, fun _ _ => rfl⟩
  | added => exact ⟨.inr rfl, fun _ _ => rfl⟩
  | joined knownNode =>
    refine ⟨.inl rfl, fun j hj => ?_⟩
    simp [List.filter_append, hj.symm]
  | test | member | failed | kept | interrupted => exact ⟨.inl rfl, fun _ _ => rfl⟩

/-! ### The invariant -/

/-- The part of the invariant that is about the shared state. -/
structure RingMemory (s : RingState δ) : Prop where
  nodup : s.joinedNodes.Nodup
  joined : ∀ d ∈ s.joinedNodes, s.joinedNodes.head? = some d ∨ ∃ knownNode, s.Joined d knownNode
  joineesAreMembers : ∀ d knownNode, s.Joined d knownNode → knownNode ∈ s.joinedNodes
  earlier : ∀ d knownNode, s.Joined d knownNode → d ∈ s.joinedNodes →
    s.joinedNodes.head? = some d ∨ InOrder [knownNode, d] s.joinedNodes
  selfJoin : ∀ d, s.Joined d d → s.joinedNodes.head? = some d

/-- Until its task has added it, a descriptor is in the set only if it is the first. -/
def OnlyAsFirst (s : RingState δ) (i : δ) : Prop :=
  i ∈ s.joinedNodes → s.joinedNodes.head? = some i

/-- The part of the invariant that is about a task. -/
def JoinView (s : RingState δ) (i : δ) : JoinPoint δ → Prop
  | .test | .choose | .threw => OnlyAsFirst s i ∧ s.joins.filter (·.1 = i) = []
  | .join knownNode =>
    OnlyAsFirst s i ∧ s.joins.filter (·.1 = i) = [] ∧ knownNode ∈ s.joinedNodes
  | .add knownNode => OnlyAsFirst s i ∧ s.joins.filter (·.1 = i) = [(i, knownNode)]
  | .returned knownNode => i ∈ s.joinedNodes ∧ s.joins.filter (·.1 = i) = [(i, knownNode)]

theorem joined_iff_mem_filter : s.Joined d knownNode ↔
    (d, knownNode) ∈ s.joins.filter (·.1 = d) := by
  simp [RingState.Joined]

omit [DecidableEq δ] in
theorem RingMemory.rooted (h : RingMemory s) : RingRooted s where
  reachesFirst d hd := by
    obtain ⟨first, hfirst⟩ : ∃ first, s.joinedNodes.head? = some first := by
      cases hl : s.joinedNodes with
      | nil => simp [hl] at hd
      | cons first _ => exact ⟨first, rfl⟩
    refine ⟨first, hfirst, reaches_first h.nodup hfirst (fun a ha hne => ?_) d hd⟩
    have hnot : ¬ s.joinedNodes.head? = some a := by
      rw [hfirst]
      rintro ⟨⟩
      exact hne rfl
    obtain ⟨knownNode, hjoined⟩ := (h.joined a ha).resolve_left hnot
    exact ⟨knownNode, hjoined, (h.earlier a knownNode hjoined ha).resolve_left hnot⟩
  joineesAreMembers := h.joineesAreMembers
  earlier := h.earlier
  selfJoin := h.selfJoin

omit [DecidableEq δ] in
/-- A descriptor that is added comes after the members that are there. -/
theorem RingMemory.append (h : RingMemory s) (hi : i ∉ s.joinedNodes)
    (hjoined : s.joinedNodes = [] ∨ ∃ knownNode, s.Joined i knownNode) :
    RingMemory { s with joinedNodes := s.joinedNodes ++ [i] } where
  nodup := List.nodup_append.mpr ⟨h.nodup, List.nodup_singleton i, by
    rintro a ha b hb rfl
    exact hi (List.mem_singleton.mp hb ▸ ha)⟩
  joined d hd := by
    rcases List.mem_append.mp hd with hd | hd
    · exact (h.joined d hd).imp List.mem_head?_append_of_mem_head? id
    · obtain rfl : d = i := List.mem_singleton.mp hd
      rcases hjoined with hempty | hjoined
      · exact .inl (by simp [hempty])
      · exact .inr hjoined
  joineesAreMembers d knownNode hd := List.mem_append_left _ (h.joineesAreMembers d knownNode hd)
  earlier d knownNode hd hmem := by
    have hknown : knownNode ∈ s.joinedNodes := h.joineesAreMembers d knownNode hd
    rcases List.mem_append.mp hmem with hmem | hmem
    · exact (h.earlier d knownNode hd hmem).imp List.mem_head?_append_of_mem_head? (·.append [i])
    · obtain rfl : d = i := List.mem_singleton.mp hmem
      exact .inr (inOrder_pair_concat.mpr (.inr ⟨hknown, rfl⟩))
  selfJoin d hd := List.mem_head?_append_of_mem_head? (h.selfJoin d hd)

/-- What a step of a task does to the shared state, and where it leaves the task. -/
theorem JoinStep.own (hstep : JoinStep i s p s' p') (h : RingMemory s) (hv : JoinView s i p) :
    RingMemory s' ∧ JoinView s' i p' := by
  cases hstep with
  | test => exact ⟨h, hv⟩
  | first hempty =>
    obtain ⟨-, hnone⟩ := hv
    refine ⟨h.append (by simp [hempty]) (.inl hempty), fun _ => by simp [hempty], hnone, ?_⟩
    exact List.mem_append_right _ (List.mem_singleton_self i)
  | member knownNode hmem => exact ⟨h, hv.1, hv.2, hmem⟩
  | joined knownNode =>
    obtain ⟨honly, hnone, hmem⟩ := hv
    have hcases (d node : δ) (hd : (d, node) ∈ s.joins ++ [(i, knownNode)]) :
        s.Joined d node ∨ d = i ∧ node = knownNode := by
      simpa [RingState.Joined] using hd
    refine ⟨⟨h.nodup, fun d hd => ?_, fun d node hd => ?_, fun d node hd hdmem => ?_,
      fun d hd => ?_⟩, honly, by simp [List.filter_append, hnone]⟩
    · exact (h.joined d hd).imp id fun ⟨node, hnode⟩ => ⟨node, List.mem_append_left _ hnode⟩
    · rcases hcases d node hd with hd | ⟨-, rfl⟩
      · exact h.joineesAreMembers d node hd
      · exact hmem
    · rcases hcases d node hd with hd | ⟨rfl, -⟩
      · exact h.earlier d node hd hdmem
      · exact .inl (honly hdmem)
    · rcases hcases d d hd with hd | ⟨rfl, rfl⟩
      · exact h.selfJoin d hd
      · exact honly hmem
  | failed knownNode => exact ⟨h, hv.1, hv.2.1⟩
  | added knownNode hi =>
    obtain ⟨-, hone⟩ := hv
    have hjoined : s.Joined i knownNode := joined_iff_mem_filter.mpr (by simp [hone])
    refine ⟨h.append hi (.inr ⟨knownNode, hjoined⟩), ?_, hone⟩
    exact List.mem_append_right _ (List.mem_singleton_self i)
  | kept knownNode hi => exact ⟨h, hi, hv.2⟩
  | interrupted _ hp =>
    rcases hp with rfl | ⟨knownNode, rfl⟩
    · exact ⟨h, hv⟩
    · exact ⟨h, hv.1, hv.2.1⟩

/-- What is known of a task stays true when another one takes a step. -/
theorem JoinStep.other {j : δ} {q : JoinPoint δ} (hstep : JoinStep i s p s' p') (hj : j ≠ i)
    (hv : JoinView s j q) : JoinView s' j q := by
  obtain ⟨hmembers, hjoins⟩ := hstep.frame
  have hmono : ∀ d ∈ s.joinedNodes, d ∈ s'.joinedNodes := by
    intro d hd
    rcases hmembers with h | h <;> rw [h]
    · exact hd
    · exact List.mem_append_left _ hd
  have honly (h : OnlyAsFirst s j) : OnlyAsFirst s' j := by
    intro hmem
    rcases hmembers with heq | heq <;> rw [heq] at hmem ⊢
    · exact h hmem
    · rcases List.mem_append.mp hmem with hmem | hmem
      · exact List.mem_head?_append_of_mem_head? (h hmem)
      · exact absurd (List.mem_singleton.mp hmem) hj
  have hfilter := hjoins j hj
  cases q with
  | test | choose | threw => exact ⟨honly hv.1, hfilter.trans hv.2⟩
  | join knownNode => exact ⟨honly hv.1, hfilter.trans hv.2.1, hmono _ hv.2.2⟩
  | add knownNode => exact ⟨honly hv.1, hfilter.trans hv.2⟩
  | returned knownNode => exact ⟨hmono _ hv.1, hfilter.trans hv.2⟩

/-- What is known of a task and of the call that waits for it. -/
structure CallView (s : RingState δ) (i : δ) (k : JoinCall δ) : Prop where
  task : JoinView s i k.task
  result : ∀ knownNode, k.result = .returned knownNode → k.task = .returned knownNode

/-- A task that has returned takes no more steps, so the caller's result stays that of the task. -/
theorem CallView.step (h : RingMemory s) (hv : CallView s i k)
    (hs : s.joinWithRetry i e k = some (s', k')) : RingMemory s' ∧ CallView s' i k' := by
  rcases joinWithRetry_cases hs with ⟨hstep, hresult⟩ | ⟨rfl, htask, hresult⟩
  · obtain ⟨hmemory, hview⟩ := hstep.own h hv.task
    refine ⟨hmemory, hview, fun knownNode hr => ?_⟩
    have hreturned := hv.result knownNode (hresult ▸ hr)
    generalize k'.task = q at hstep
    rw [hreturned] at hstep
    cases hstep with
    | interrupted _ hp =>
      rcases hp with hp | ⟨_, hp⟩ <;> cases hp
  · exact ⟨h, htask ▸ hv.task, fun knownNode hr => htask.trans (hresult knownNode hr)⟩

end Steps

section Main

variable {c : Config δ (RingState δ) Unit (JoinCall δ)}

/-- The view of a descriptor's task, whether or not it has begun. -/
def TaskView (i : δ) (s : RingState δ) : Thread Unit (JoinCall δ) → Prop
  | .ready _ => JoinView s i .test
  | .running k => CallView s i k

theorem ringAssembly_invariant (h : (ringAssembly δ).machine.Reachable c) :
    Interleaving.Holds RingMemory TaskView c := by
  refine Interleaving.owickiGries_next h ⟨⟨List.nodup_nil, ?_, ?_, ?_, ?_⟩, fun i _ => ⟨?_, rfl⟩⟩
    ?_ ?_ ?_
  · rintro d ⟨⟩
  · rintro d knownNode ⟨⟩
  · rintro d knownNode ⟨⟩
  · rintro d ⟨⟩
  · rintro ⟨⟩
  · intro c i e o _ hc _ hi
    have hview := hc.2 i
    rw [hi] at hview
    exact ⟨hview, by rintro _ ⟨⟩⟩
  · intro c i e k s' k' _ hc _ hi hs
    have hview := hc.2 i
    rw [hi] at hview
    exact hview.step hc.1 hs
  · intro c i e k s' k' j _ hc _ hi hs hj
    have hview := hc.2 j
    rcases joinWithRetry_cases hs with ⟨hstep, -⟩ | ⟨rfl, -, -⟩
    · cases ht : c.thread j with
      | ready o =>
        rw [ht] at hview
        exact hstep.other (q := .test) hj hview
      | running k₁ =>
        rw [ht] at hview
        exact ⟨hstep.other hj hview.task, hview.result⟩
    · exact hview

/-- **The ring hangs together.** Whatever joins throw, are repeated or time out: every member of
`joined_nodes` reaches the first member by joins that have returned, each of them to a node that
was a member before; and when every call has returned, every node has joined exactly once and
reaches the first. -/
theorem assembleRing_connects (h : (ringAssembly δ).machine.Reachable c) :
    RingRooted c.shared ∧ ((∀ d, HasJoined c d) → RingAssembled c.shared) := by
  obtain ⟨hmemory, hview⟩ := ringAssembly_invariant h
  refine ⟨hmemory.rooted, fun hall => ⟨fun d => ?_, fun d => ?_⟩⟩
  all_goals
    obtain ⟨task, knownNode, ht⟩ := hall d
    have hd := hview d
    rw [ht] at hd
    have htask : task = .returned knownNode := hd.result knownNode rfl
    have hreturned := hd.task
    rw [htask] at hreturned
  · exact ⟨knownNode, hreturned.2⟩
  · exact hmemory.rooted.reachesFirst d hreturned.1

/-- The first node cannot join itself, and joins through the second one in the end: they have
joined each other. -/
def joinEachOther : List (Bool × JoinEvent) :=
  let go (index : ℕ) (joins : Bool) : JoinEvent := .task index joins
  [(false, go 0 true), (false, go 0 true), (false, go 0 true), (false, go 0 false),
    (true, go 0 true), (true, go 0 true), (true, go 0 true), (true, go 0 true), (true, go 0 true),
    (false, go 0 true), (false, go 1 true), (false, go 0 true), (false, go 0 true),
    (true, .result), (false, .result)]

theorem assembleRing_connects_joinEachOther :
    ∃ c : Config Bool (RingState Bool) Unit (JoinCall Bool),
      c.shared.joins = [(true, false), (false, true)] ∧ RingAssembled c.shared := by
  obtain ⟨c, hrun, hc⟩ := (ringAssembly Bool).machine.exists_run_of_exec
    ⟨⟨[], []⟩, fun _ => .ready ()⟩ joinEachOther
    (fun c => c.shared.joins = [(true, false), (false, true)] ∧
      c.thread true = .running ⟨.returned false, .returned false⟩ ∧
      c.thread false = .running ⟨.returned true, .returned true⟩) (by decide)
  obtain ⟨hjoins, htrue, hfalse⟩ := of_decide_eq_true hc
  have hreach : (ringAssembly Bool).machine.Reachable c := ⟨_, ⟨rfl, fun _ => ⟨(), rfl⟩⟩, hrun⟩
  refine ⟨c, hjoins, (assembleRing_connects hreach).2 fun d => ?_⟩
  cases d with
  | false => exact ⟨_, _, hfalse⟩
  | true => exact ⟨_, _, htrue⟩

end Main

end Shabdiz
