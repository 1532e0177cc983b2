import Shabdiz.Core.StatusScan

/-!
# Workers, and the probe that cannot fail

`WorkerManager` deploys a worker process and keeps a `Worker` as the application reference. Its
application call is `worker.getAddress()`, with the comment "makes a remote call"; but
`Worker.getAddress` returns a field. So the call succeeds whenever there is a reference, and
nothing ever takes a reference away: a worker that has been killed is found `RUNNING`.

## Main definitions

* `Worker`, `WorkerManager.manager` — the manager, as an instance of `AbstractApplicationManager`
* `AfterKill` — a run that goes on after a kill has returned, in which no deployment begins
* `StaysKilled` — no probe reports `RUNNING`, and no scan moves `KILLED` to `RUNNING`

## Main results

* `WorkerManager.attemptApplicationCall_eq_ok_iff` — the call succeeds exactly on a reference
* `staysKilled_iff` — a killed worker stays so exactly if none was ever deployed
* `exists_running_afterKill` — and otherwise a scan finds it `RUNNING`
-/

namespace Shabdiz

open ApplicationDescriptor

/-- The address of a worker. -/
structure InetSocketAddress where
  address : String
  port : Nat
deriving DecidableEq

/-- A worker, as the launcher holds it. -/
structure Worker where
  worker_address : InetSocketAddress
  worker_process_id : Option Nat
deriving DecidableEq

/-- The address of the worker, a read of a field. -/
def Worker.getAddress (worker : Worker) : InetSocketAddress := worker.worker_address

/-- The process id of the worker, a read of a field. -/
def Worker.getWorkerProcessId (worker : Worker) : Option Nat := worker.worker_process_id

/-- How `Worker.shutdown` ends. -/
inductive ShutdownOutcome where
  | returned
  /-- The remote call has failed, and `shutdown` throws an `RPCException`. -/
  | rpcException
  | thrown (e : Throwable)

/-- What the manager of workers meets. -/
structure WorkerAnswer where
  /-- Starting the process and reading its properties: the port of the worker and its process
  id. -/
  start : Except Throwable (Nat × Option Nat)
  shutdown : ShutdownOutcome
  /-- The command that kills the process, executed on the host. -/
  execute : Except Throwable Unit

namespace WorkerManager

/-- `host_address` is the address of the descriptor's host. -/
def deploy (host_address : String) (answer : WorkerAnswer) : Except Throwable Worker := do
  let (port, pid) ← answer.start
  pure ⟨⟨host_address, port⟩, pid⟩

/-- `kill`: shut the worker down, and end its process if its id is known. An `RPCException` of the
first is ignored. -/
def kill (reference : Option Worker) (answer : WorkerAnswer) : Except Throwable Unit :=
  match reference with
  | none => .ok ()
  | some worker => do
    match answer.shutdown with
    | .returned | .rpcException => pure ()
    | .thrown e => throw e
    if worker.getWorkerProcessId.isSome then answer.execute else pure ()

/-- A `NullPointerException` if there is no reference. -/
def attemptApplicationCall (reference : Option Worker) (_ : WorkerAnswer) :
    Except Throwable Unit :=
  match reference with
  | none => .error (.thrown .exception)
  | some worker =>
    let _ := worker.getAddress
    .ok ()

/-- The manager of workers, for a descriptor with the given host. -/
def manager (host_address : String) : AbstractApplicationManager Worker WorkerAnswer where
  deploy := deploy host_address
  kill := kill
  attemptApplicationCall := attemptApplicationCall

/-- The application call succeeds exactly when there is a reference. -/
theorem attemptApplicationCall_eq_ok_iff {host_address : String} {reference : Option Worker}
    {answer : WorkerAnswer} :
    (manager host_address).attemptApplicationCall reference answer = .ok () ↔
      ∃ worker, reference = some worker := by
  show attemptApplicationCall reference answer = .ok () ↔ _
  cases reference with
  | none => simp [attemptApplicationCall]
  | some worker => simp [attemptApplicationCall]

end WorkerManager

/-! ### After a kill -/

variable {ι ρ η δ : Type}

/-- Whether a call is an `ApplicationNetwork.kill` that has returned normally. -/
def Call.killed : Call ρ → Bool
  | kill (.updating .returned) => true
  | autoKillScan (.killing (.updating .returned)) => true
  | _ => false

/-- Whether the next step of a call begins a deployment. -/
def Thread.beginsDeploy : Thread Operation (Call ρ) → Bool
  | ready .deploy => true
  | running (.autoDeployScan (.reading (.returned state))) => isDeployable state
  | _ => false

/-- A network of workers, one for each host. -/
def workerNetwork [DecidableEq δ] (ι : Type) [DecidableEq ι] (host_address : δ → String) :
    Machine (δ → DescriptorConfig ι Worker) (δ × (ι × Answer WorkerAnswer)) :=
  networkMachine ι fun d => WorkerManager.manager (host_address d)

variable [DecidableEq ι] [DecidableEq δ] {host_address : δ → String} {d : δ}
  {c c' : δ → DescriptorConfig ι Worker}

/-- In `c` a kill of `d` has returned normally, and no deployment of `d` begins between `c` and
`c'`. -/
structure AfterKill (host_address : δ → String) (d : δ) (c c' : δ → DescriptorConfig ι Worker) :
    Prop where
  reachable : (workerNetwork ι host_address).Reachable c
  killed : ∃ i k, (c d).thread i = .running k ∧ k.killed = true
  run : (workerNetwork ι host_address).RunOf
    (fun u a => a.1 = d → ((u d).thread a.2.1).beginsDeploy = false) c c'

/-- In `c'` no probe of `d` reports `RUNNING`, and no scan has moved `d` from `KILLED` to `RUNNING`
since `c`. -/
structure StaysKilled (host_address : δ → String) (d : δ) (c c' : δ → DescriptorConfig ι Worker) :
    Prop where
  probe : ∀ answer host, (WorkerManager.manager (host_address d)).probeState
    (c' d).shared.applicationReference answer host ≠ .ok .running
  scan : ∀ i, (calls ι (WorkerManager.manager (host_address d))).opOf ((c' d).thread i) =
    .statusScan → .wrote i .killed .running ∈ (c' d).shared.log →
      .wrote i .killed .running ∈ (c d).shared.log

/-- A reference has been stored, and a probe that has reported `RUNNING` has found one. -/
structure Referred (d : ApplicationDescriptor ι Worker) : Prop where
  reference : (∃ worker, d.applicationReference = some worker) ↔ ∃ i r, .stored i r ∈ d.log
  probed : ∀ i called, .probed i called .running ∈ d.log → ∃ i r, .stored i r ∈ d.log

theorem referred_of_reachable {address : String} {c : DescriptorConfig ι Worker}
    (h : (descriptorMachine ι (WorkerManager.manager address)).Reachable c) :
    Referred c.shared := by
  refine shared_invariant (G := Referred) h ⟨by simp, by simp⟩ ?_
  intro c i e d' v' _ hG _ heff
  have hkeep : ∀ d' : ApplicationDescriptor ι Worker,
      d'.applicationReference = c.shared.applicationReference →
      (∀ i r, .stored i r ∈ d'.log ↔ .stored i r ∈ c.shared.log) →
      (∀ i called, .probed i called .running ∈ d'.log → .probed i called .running ∈ c.shared.log) →
      Referred d' := by
    intro d' hreference hstored hprobed
    refine ⟨?_, fun i called hmem => ?_⟩
    · simp only [hreference, hstored]
      exact hG.reference
    · simp only [hstored]
      exact hG.probed i called (hprobed i called hmem)
  generalize (c.thread i).view = v at heff
  cases heff with
  | @store r =>
    have hst : ∃ j r', .stored j r' ∈ (c.shared.setApplicationReference i r).log :=
      ⟨i, r, List.mem_append_right _ (List.mem_singleton_self _)⟩
    exact ⟨⟨fun _ => hst, fun _ => ⟨r, rfl⟩⟩, fun _ _ _ => hst⟩
  | @probe a host old new _ hprobe =>
    by_cases hnew : new = .running
    · subst hnew
      rw [AbstractApplicationManager.probeState_eq_running_iff,
        WorkerManager.attemptApplicationCall_eq_ok_iff] at hprobe
      obtain ⟨j, r, hst⟩ := hG.reference.mp hprobe
      have hst' : ∃ j r, .stored j r ∈ (c.shared.record (.probed i
          ((WorkerManager.manager address).attemptApplicationCall
            c.shared.applicationReference a).isOk .running)).log :=
        ⟨j, r, List.mem_append_left _ hst⟩
      exact ⟨⟨fun _ => hst', fun _ => hprobe⟩, fun _ _ _ => hst'⟩
    · exact hkeep _ rfl (by simp) (by simp [Ne.symm hnew])
  | _ => exact hkeep _ rfl (by simp) (by simp)

theorem AfterKill.reachable_descriptor (h : AfterKill host_address d c c') :
    (descriptorMachine ι (WorkerManager.manager (host_address d))).Reachable (c' d) :=
  Machine.ReachableOf.proj (h.reachable.trans h.run.run) d fun _ _ _ => trivial

/-- **When a killed worker stays killed.** After a kill, and while no deployment begins, no probe
reports `RUNNING` and no scan moves `KILLED` to `RUNNING`, exactly if no reference has ever been
stored. -/
theorem staysKilled_iff (h : AfterKill host_address d c c') :
    StaysKilled host_address d c c' ↔ ∀ i r, .stored i r ∉ (c' d).shared.log := by
  have hreach := h.reachable_descriptor
  have hG := referred_of_reachable hreach
  constructor
  · intro hstays i r hst
    obtain ⟨worker, hworker⟩ := hG.reference.mpr ⟨i, r, hst⟩
    refine hstays.probe ⟨.error (.thrown .exception), .returned, .ok ()⟩ none ?_
    rw [AbstractApplicationManager.probeState_eq_running_iff,
      WorkerManager.attemptApplicationCall_eq_ok_iff]
    exact ⟨worker, hworker⟩
  · intro hnone
    refine ⟨fun answer host hprobe => ?_, fun i hi hw => ?_⟩
    · rw [AbstractApplicationManager.probeState_eq_running_iff,
        WorkerManager.attemptApplicationCall_eq_ok_iff] at hprobe
      obtain ⟨j, r, hst⟩ := hG.reference.mp hprobe
      exact hnone j r hst
    · -- a scan writes `RUNNING` only if it has probed it
      obtain ⟨before, since, after, called, hlog, hcalled, -⟩ :=
        statusScan_published hreach i hi _ _ hw
      obtain ⟨j, r, hst⟩ := hG.probed i called (by rw [hlog]; simp [hcalled])
      exact absurd hst (hnone j r)

/-! ### A killed worker found running -/

section Example

/-- Call `0` performs `o`, call `1` kills, call `2` scans. -/
def killAndScan (o : Operation) : Fin 1 → DescriptorConfig Nat Worker :=
  fun _ => ⟨.new, fun i => .ready (if i = 0 then o else if i = 1 then .kill else .statusScan)⟩

/-- Everything goes well; the worker reports no process id. -/
def workerAnswer : WorkerAnswer := ⟨.ok (1, none), .returned, .ok ()⟩

/-- The first call: a deployment. -/
def deploySchedule : List (Fin 1 × (Nat × Answer WorkerAnswer)) :=
  [(0, 0, .go), (0, 0, .deploy workerAnswer), (0, 0, .go), (0, 0, .go), (0, 0, .go), (0, 0, .go),
    (0, 0, .go)]

/-- The second call: a kill. -/
def killSchedule : List (Fin 1 × (Nat × Answer WorkerAnswer)) :=
  [(0, 1, .go), (0, 1, .kill workerAnswer true), (0, 1, .go), (0, 1, .go), (0, 1, .go), (0, 1, .go)]

/-- The third call: a status scan of what was killed. -/
def scanSchedule : List (Fin 1 × (Nat × Answer WorkerAnswer)) :=
  [(0, 2, .go), (0, 2, .go), (0, 2, .go), (0, 2, .go), (0, 2, .probe workerAnswer none),
    (0, 2, .go), (0, 2, .go)]

/-- A kill has returned, and what a scan after it leads to passes a check. -/
def KilledThenScanned (p : (Fin 1 → DescriptorConfig Nat Worker) → Bool)
    (c : Fin 1 → DescriptorConfig Nat Worker) : Prop :=
  (c 0).thread 1 = .running (.kill (.updating .returned)) ∧
    (((workerNetwork Nat fun _ : Fin 1 => "host").execOf
      (fun u a => a.1 = 0 → ((u 0).thread a.2.1).beginsDeploy = false) c scanSchedule).any p) = true

instance (p : (Fin 1 → DescriptorConfig Nat Worker) → Bool)
    (c : Fin 1 → DescriptorConfig Nat Worker) : Decidable (KilledThenScanned p c) :=
  inferInstanceAs (Decidable (_ ∧ _))

theorem KilledThenScanned.afterKill {o : Operation}
    {p : (Fin 1 → DescriptorConfig Nat Worker) → Bool}
    {c : Fin 1 → DescriptorConfig Nat Worker}
    (hr : (workerNetwork Nat fun _ => "host").Run (killAndScan o) c)
    (hc : KilledThenScanned p c) : ∃ c', AfterKill (fun _ => "host") 0 c c' ∧ p c' = true := by
  obtain ⟨hkilled, hscan⟩ := hc
  obtain ⟨c', hr', hc'⟩ := Machine.exists_runOf_of_execOf _ _ _ _ _ hscan
  exact ⟨c', ⟨⟨_, fun _ => ⟨rfl, fun _ => ⟨_, rfl⟩⟩, hr⟩, ⟨1, _, hkilled, rfl⟩, hr'⟩, hc'⟩

/-- A worker is deployed and killed, and a scan moves it from `KILLED` to `RUNNING`. -/
theorem exists_running_afterKill :
    ∃ c c' : Fin 1 → DescriptorConfig Nat Worker, AfterKill (fun _ => "host") 0 c c' ∧
      (c 0).shared.state = .killed ∧ (c' 0).shared.state = .running ∧
      (calls Nat (WorkerManager.manager "host")).opOf ((c' 0).thread 2) = .statusScan ∧
      InOrder [.killed 1, .wrote 2 .killed .running] (c' 0).shared.log := by
  let p : (Fin 1 → DescriptorConfig Nat Worker) → Bool := fun c' =>
    (c' 0).shared.state = .running ∧
      (calls Nat (WorkerManager.manager "host")).opOf ((c' 0).thread 2) = .statusScan ∧
      InOrder [.killed 1, .wrote 2 .killed .running] (c' 0).shared.log
  obtain ⟨c, hr, hc⟩ := (workerNetwork Nat fun _ : Fin 1 => "host").exists_run_of_exec
    (killAndScan .deploy) (deploySchedule ++ killSchedule)
    (fun c => (c 0).shared.state = .killed ∧ KilledThenScanned p c) (by decide)
  obtain ⟨hs, hc⟩ := of_decide_eq_true hc
  obtain ⟨c', hafter, hc'⟩ := hc.afterKill hr
  exact ⟨c, c', hafter, hs, of_decide_eq_true hc'⟩

/-- A worker that was never deployed is killed, and stays so. -/
theorem staysKilled_not_deployed :
    ∃ c c' : Fin 1 → DescriptorConfig Nat Worker, AfterKill (fun _ => "host") 0 c c' ∧
      StaysKilled (fun _ => "host") 0 c c' := by
  let p : (Fin 1 → DescriptorConfig Nat Worker) → Bool := fun c' =>
    (c' 0).shared.log.all fun e => !(e matches .stored _ _)
  obtain ⟨c, hr, hc⟩ := (workerNetwork Nat fun _ : Fin 1 => "host").exists_run_of_exec
    (killAndScan .kill) killSchedule (fun c => KilledThenScanned p c) (by decide)
  obtain ⟨c', hafter, hc'⟩ := (of_decide_eq_true hc).afterKill hr
  refine ⟨c, c', hafter, (staysKilled_iff hafter).mpr fun i r hst => ?_⟩
  have := List.all_eq_true.mp hc' _ hst
  cases this

end Example

end Shabdiz
