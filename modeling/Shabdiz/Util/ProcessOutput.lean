import Mathlib.Logic.Function.Basic
import Shabdiz.Concurrency.Machine
import Shabdiz.Concurrency.Pipe
import Shabdiz.Host.BootstrapConfiguration

/-!
# The output of a process

`awaitNormalTerminationAndGetOutput` waits for a process and returns what it has written. A process
writes to two pipes, and has to wait while one of them is full; so two threads read them to the end
while the caller waits. Then the caller gets what they have read: if there is an error output, that
is thrown, whatever the exit value, which is only logged. In any case the process is destroyed.

A process is a list of what it writes, in order, and comes to its end or does not. The processes
that it starts have its pipes too: they may write to them when it is over, and a stream does not end
before they let go of it, unless the platform ends it with the process. A read may fail at any time.
A text is read as characters.

## Main definitions

* `AwaitedProcess` — the process and those that share its pipes, the threads that read, the caller
* `awaitMachine` — the call
* `AwaitOutputStep` — what each action does
* `InAwait` — where a call can be
* `AwaitOutcome.of` — how a call ends, by what was written and the reads that failed
* `AwaitsOutput` — what is promised of every state

## Main results

* `awaitOutputStep_of_step` — the list of what actions do is complete
* `InAwait.step` — the invariant, step by step
* `awaitsOutput_of_reachable` — the output is all of it, and nobody waits for ever
-/

namespace Shabdiz

/-! ### The code -/

/-- The streams of a process. -/
inductive ProcessStream where
  | output
  | error
deriving DecidableEq

/-- A task that reads a stream to its end. -/
inductive StreamReader where
  | unsubmitted
  | reading (text : List Char)
  | ended (text : List Char)
  /-- `read` has thrown an `IOException`. -/
  | failed
deriving DecidableEq

/-- How a call ends. -/
inductive AwaitOutcome where
  | returned (output : List Char)
  /-- An `IOException` with the error output. -/
  | threwError (error : List Char)
  /-- The `IOException` of a read. -/
  | threwReadFailure
  | threwInterrupted
deriving DecidableEq

/-- Control points of the caller. -/
inductive AwaitOutputPoint where
  | submitError
  | submitResult
  | waitFor
  | getError
  | getResult
  /-- In the `finally` block. -/
  | destroy (outcome : AwaitOutcome)
  | shutdownNow (outcome : AwaitOutcome)
  | done (outcome : AwaitOutcome)
deriving DecidableEq

/-- A call, and the process that it is for. -/
structure AwaitedProcess where
  /-- What the process writes, as long as it runs, and whether it comes to its end. -/
  program : List (ProcessStream × Char)
  terminates : Bool
  /-- What the others write that have its pipes, and whether they let go of them then. -/
  others : List (ProcessStream × Char)
  letGo : Bool
  todo : List (ProcessStream × Char)
  othersTodo : List (ProcessStream × Char)
  exited : Bool
  destroyed : Bool
  /-- Nothing more comes from a stream when its pipe has been read. -/
  closed : ProcessStream → Bool
  pipe : ProcessStream → Pipe Char
  /-- All that was written to a stream until it was closed. No code reads it. -/
  written : ProcessStream → List Char
  reader : ProcessStream → StreamReader
  point : AwaitOutputPoint
  /-- Whether the caller was interrupted. No code reads it. -/
  interrupted : Bool

/-- What can happen. -/
inductive AwaitOutputAction where
  | write
  | othersWrite
  | exit
  | close (stream : ProcessStream)
  | closeEarly (stream : ProcessStream)
  | read (stream : ProcessStream)
  | readFails (stream : ProcessStream)
  | caller
  | interrupt

/-- What is written to a stream. -/
def writtenTo (stream : ProcessStream) (program : List (ProcessStream × Char)) : List Char :=
  (program.filter (·.1 = stream)).map Prod.snd

namespace AwaitedProcess

/-- A reader goes on. -/
def setReader (s : AwaitedProcess) (stream : ProcessStream) (r : StreamReader) : AwaitedProcess :=
  { s with reader := Function.update s.reader stream r }

/-- The process runs unless it has come to its end or has been destroyed. -/
def isRunning (s : AwaitedProcess) : Bool := !s.exited && !s.destroyed

/-- A character is written to a stream, if there is room. It is lost if the stream is closed. -/
def put (s : AwaitedProcess) (stream : ProcessStream) (c : Char) : Option AwaitedProcess :=
  if s.closed stream then some s
  else ((s.pipe stream).write c).map fun p =>
    { s with
      pipe := Function.update s.pipe stream p
      written := Function.update s.written stream (s.written stream ++ [c]) }

/-- The process writes. -/
def writeStep (s : AwaitedProcess) : Option AwaitedProcess :=
  match s.todo with
  | [] => none
  | (stream, c) :: rest =>
    if s.isRunning then (s.put stream c).map fun t => { t with todo := rest } else none

/-- One of those that share its pipes writes. -/
def othersWriteStep (s : AwaitedProcess) : Option AwaitedProcess :=
  match s.othersTodo with
  | [] => none
  | (stream, c) :: rest => (s.put stream c).map fun t => { t with othersTodo := rest }

/-- The process comes to its end. -/
def exitStep (s : AwaitedProcess) : Option AwaitedProcess :=
  if s.isRunning ∧ s.todo = [] ∧ s.terminates then some { s with exited := true } else none

/-- Everybody lets go of a stream. -/
def closeStep (s : AwaitedProcess) (stream : ProcessStream) : Option AwaitedProcess :=
  if s.closed stream = false ∧ (s.isRunning = false ∨ writtenTo stream s.todo = []) ∧
      writtenTo stream s.othersTodo = [] ∧ s.letGo then
    some { s with closed := Function.update s.closed stream true }
  else none

/-- The platform closes a stream since the process is over, whoever else has it. -/
def closeEarlyStep (s : AwaitedProcess) (stream : ProcessStream) : Option AwaitedProcess :=
  if s.closed stream = false ∧ s.isRunning = false then
    some { s with closed := Function.update s.closed stream true }
  else none

/-- One step of `IOUtils.toString`. -/
def readStep (s : AwaitedProcess) (stream : ProcessStream) : Option AwaitedProcess :=
  match s.reader stream with
  | .reading text =>
    match (s.pipe stream).read with
    | some (c, p) =>
      some { s.setReader stream (.reading (text ++ [c])) with
        pipe := Function.update s.pipe stream p }
    | none => if s.closed stream then some (s.setReader stream (.ended text)) else none
  | _ => none

/-- A read throws an `IOException`. -/
def readFailsStep (s : AwaitedProcess) (stream : ProcessStream) : Option AwaitedProcess :=
  match s.reader stream with
  | .reading _ => some (s.setReader stream .failed)
  | _ => none

/-- One step of the caller. -/
def callerStep (s : AwaitedProcess) : Option AwaitedProcess :=
  match s.point with
  | .submitError => some { s.setReader .error (.reading []) with point := .submitResult }
  | .submitResult => some { s.setReader .output (.reading []) with point := .waitFor }
  | .waitFor => if s.isRunning then none else some { s with point := .getError }
  | .getError =>
    match s.reader .error with
    | .ended error =>
      some { s with point := if error ≠ [] then .destroy (.threwError error) else .getResult }
    | .failed => some { s with point := .destroy .threwReadFailure }
    | _ => none
  | .getResult =>
    match s.reader .output with
    | .ended output => some { s with point := .destroy (.returned (trim isTrimmed output)) }
    | .failed => some { s with point := .destroy .threwReadFailure }
    | _ => none
  | .destroy outcome => some { s with destroyed := true, point := .shutdownNow outcome }
  | .shutdownNow outcome => some { s with point := .done outcome }
  | .done _ => none

/-- The caller is interrupted while it waits. -/
def interruptStep (s : AwaitedProcess) : Option AwaitedProcess :=
  match s.point with
  | .waitFor | .getError | .getResult =>
    some { s with point := .destroy .threwInterrupted, interrupted := true }
  | _ => none

/-- What an action does, if it can happen. -/
def step (s : AwaitedProcess) : AwaitOutputAction → Option AwaitedProcess
  | .write => s.writeStep
  | .othersWrite => s.othersWriteStep
  | .exit => s.exitStep
  | .close stream => s.closeStep stream
  | .closeEarly stream => s.closeEarlyStep stream
  | .read stream => s.readStep stream
  | .readFails stream => s.readFailsStep stream
  | .caller => s.callerStep
  | .interrupt => s.interruptStep

/-- A call for a process that has just been started. -/
def start (program others : List (ProcessStream × Char)) (terminates letGo : Bool)
    (pipe : ProcessStream → Pipe Char) : AwaitedProcess where
  program := program
  terminates := terminates
  others := others
  letGo := letGo
  todo := program
  othersTodo := others
  exited := false
  destroyed := false
  closed := fun _ => false
  pipe := pipe
  written := fun _ => []
  reader := fun _ => .unsubmitted
  point := .submitError
  interrupted := false

end AwaitedProcess

/-- The call, for any process and pipes of any capacity. -/
def awaitMachine : Machine AwaitedProcess AwaitOutputAction where
  init s := ∃ program others terminates letGo pipe, (∀ stream, (pipe stream).buffer = []) ∧
    s = .start program others terminates letGo pipe
  step := AwaitedProcess.step

/-! ### What actions do -/

section Steps

variable {s t : AwaitedProcess} {a : AwaitOutputAction}

/-- What comes of a character that is written. -/
inductive PutStep (s : AwaitedProcess) (stream : ProcessStream) (c : Char) :
    AwaitedProcess → Prop where
  | put {p} (hclosed : s.closed stream = false) (hwrite : (s.pipe stream).write c = some p) :
      PutStep s stream c { s with
        pipe := Function.update s.pipe stream p
        written := Function.update s.written stream (s.written stream ++ [c]) }
  | lost (hclosed : s.closed stream = true) : PutStep s stream c s

theorem putStep_of_put {stream : ProcessStream} {c : Char} (h : s.put stream c = some t) :
    PutStep s stream c t := by
  rw [AwaitedProcess.put] at h
  split at h
  · next hclosed =>
    obtain rfl := Option.some.inj h
    exact .lost hclosed
  · next hclosed =>
    obtain ⟨p, hwrite, rfl⟩ := Option.map_eq_some_iff.mp h
    exact .put (Bool.eq_false_of_not_eq_true hclosed) hwrite

/-- What an action does: the guards that let it happen, and the state after it. -/
inductive AwaitOutputStep (s : AwaitedProcess) : AwaitOutputAction → AwaitedProcess → Prop where
  | write {stream c rest t} (htodo : s.todo = (stream, c) :: rest) (hrunning : s.isRunning = true)
      (hput : PutStep s stream c t) : AwaitOutputStep s .write { t with todo := rest }
  | othersWrite {stream c rest t} (htodo : s.othersTodo = (stream, c) :: rest)
      (hput : PutStep s stream c t) : AwaitOutputStep s .othersWrite { t with othersTodo := rest }
  | exit (hrunning : s.isRunning = true) (htodo : s.todo = []) (hterminates : s.terminates = true) :
      AwaitOutputStep s .exit { s with exited := true }
  | close {stream} (hopen : s.closed stream = false)
      (hover : s.isRunning = false ∨ writtenTo stream s.todo = []) :
      AwaitOutputStep s (.close stream)
        { s with closed := Function.update s.closed stream true }
  | closeEarly {stream} (hopen : s.closed stream = false) (hrunning : s.isRunning = false) :
      AwaitOutputStep s (.closeEarly stream)
        { s with closed := Function.update s.closed stream true }
  | read {stream text c p} (hreader : s.reader stream = .reading text)
      (hread : (s.pipe stream).read = some (c, p)) :
      AwaitOutputStep s (.read stream) { s.setReader stream (.reading (text ++ [c])) with
        pipe := Function.update s.pipe stream p }
  | endRead {stream text} (hreader : s.reader stream = .reading text)
      (hread : (s.pipe stream).read = none) (hclosed : s.closed stream = true) :
      AwaitOutputStep s (.read stream) (s.setReader stream (.ended text))
  | readFails {stream text} (hreader : s.reader stream = .reading text) :
      AwaitOutputStep s (.readFails stream) (s.setReader stream .failed)
  | submitError (hpoint : s.point = .submitError) :
      AwaitOutputStep s .caller { s.setReader .error (.reading []) with point := .submitResult }
  | submitResult (hpoint : s.point = .submitResult) :
      AwaitOutputStep s .caller { s.setReader .output (.reading []) with point := .waitFor }
  | waitFor (hpoint : s.point = .waitFor) (hrunning : s.isRunning = false) :
      AwaitOutputStep s .caller { s with point := .getError }
  | getError {error} (hpoint : s.point = .getError) (hreader : s.reader .error = .ended error) :
      AwaitOutputStep s .caller
        { s with point := if error ≠ [] then .destroy (.threwError error) else .getResult }
  | getErrorFails (hpoint : s.point = .getError) (hreader : s.reader .error = .failed) :
      AwaitOutputStep s .caller { s with point := .destroy .threwReadFailure }
  | getResult {output} (hpoint : s.point = .getResult)
      (hreader : s.reader .output = .ended output) :
      AwaitOutputStep s .caller
        { s with point := .destroy (.returned (trim isTrimmed output)) }
  | getResultFails (hpoint : s.point = .getResult) (hreader : s.reader .output = .failed) :
      AwaitOutputStep s .caller { s with point := .destroy .threwReadFailure }
  | destroy {outcome} (hpoint : s.point = .destroy outcome) :
      AwaitOutputStep s .caller { s with destroyed := true, point := .shutdownNow outcome }
  | shutdownNow {outcome} (hpoint : s.point = .shutdownNow outcome) :
      AwaitOutputStep s .caller { s with point := .done outcome }
  | interrupt (hpoint : s.point = .waitFor ∨ s.point = .getError ∨ s.point = .getResult) :
      AwaitOutputStep s .interrupt
        { s with point := .destroy .threwInterrupted, interrupted := true }

theorem awaitOutputStep_of_callerStep (h : s.callerStep = some t) :
    AwaitOutputStep s .caller t := by
  rw [AwaitedProcess.callerStep] at h
  split at h
  · next hpoint =>
    obtain rfl := Option.some.inj h
    exact .submitError hpoint
  · next hpoint =>
    obtain rfl := Option.some.inj h
    exact .submitResult hpoint
  · next hpoint =>
    obtain ⟨hrunning, h⟩ := Option.ite_none_left_eq_some.mp h
    obtain rfl := Option.some.inj h
    exact .waitFor hpoint (Bool.eq_false_of_not_eq_true hrunning)
  · next hpoint =>
    split at h
    · next error hreader =>
      obtain rfl := Option.some.inj h
      exact .getError hpoint hreader
    · next hreader =>
      obtain rfl := Option.some.inj h
      exact .getErrorFails hpoint hreader
    · cases h
  · next hpoint =>
    split at h
    · next output hreader =>
      obtain rfl := Option.some.inj h
      exact .getResult hpoint hreader
    · next hreader =>
      obtain rfl := Option.some.inj h
      exact .getResultFails hpoint hreader
    · cases h
  · next outcome hpoint =>
    obtain rfl := Option.some.inj h
    exact .destroy hpoint
  · next outcome hpoint =>
    obtain rfl := Option.some.inj h
    exact .shutdownNow hpoint
  · cases h

/-- The list is complete. -/
theorem awaitOutputStep_of_step (h : awaitMachine.step s a = some t) : AwaitOutputStep s a t := by
  cases a with
  | write =>
    replace h : s.writeStep = some t := h
    rw [AwaitedProcess.writeStep] at h
    split at h
    · cases h
    · next stream c rest htodo =>
      obtain ⟨hrunning, h⟩ := Option.ite_none_right_eq_some.mp h
      obtain ⟨u, hput, rfl⟩ := Option.map_eq_some_iff.mp h
      exact .write htodo hrunning (putStep_of_put hput)
  | othersWrite =>
    replace h : s.othersWriteStep = some t := h
    rw [AwaitedProcess.othersWriteStep] at h
    split at h
    · cases h
    · next stream c rest htodo =>
      obtain ⟨u, hput, rfl⟩ := Option.map_eq_some_iff.mp h
      exact .othersWrite htodo (putStep_of_put hput)
  | exit =>
    replace h : s.exitStep = some t := h
    obtain ⟨⟨hrunning, htodo, hterminates⟩, h⟩ := Option.ite_none_right_eq_some.mp h
    obtain rfl := Option.some.inj h
    exact .exit hrunning htodo hterminates
  | close stream =>
    replace h : s.closeStep stream = some t := h
    obtain ⟨⟨hopen, hover⟩, h⟩ := Option.ite_none_right_eq_some.mp h
    obtain rfl := Option.some.inj h
    exact .close hopen hover.1
  | closeEarly stream =>
    replace h : s.closeEarlyStep stream = some t := h
    obtain ⟨⟨hopen, hrunning⟩, h⟩ := Option.ite_none_right_eq_some.mp h
    obtain rfl := Option.some.inj h
    exact .closeEarly hopen hrunning
  | read stream =>
    replace h : s.readStep stream = some t := h
    rw [AwaitedProcess.readStep] at h
    split at h
    · next text hreader =>
      split at h
      · next c p hread =>
        obtain rfl := Option.some.inj h
        exact .read hreader hread
      · next hread =>
        obtain ⟨hclosed, h⟩ := Option.ite_none_right_eq_some.mp h
        obtain rfl := Option.some.inj h
        exact .endRead hreader hread hclosed
    · cases h
  | readFails stream =>
    replace h : s.readFailsStep stream = some t := h
    rw [AwaitedProcess.readFailsStep] at h
    split at h
    · next text hreader =>
      obtain rfl := Option.some.inj h
      exact .readFails hreader
    · cases h
  | caller => exact awaitOutputStep_of_callerStep h
  | interrupt =>
    replace h : s.interruptStep = some t := h
    rw [AwaitedProcess.interruptStep] at h
    split at h
    · next hpoint =>
      obtain rfl := Option.some.inj h
      exact .interrupt (.inl hpoint)
    · next hpoint =>
      obtain rfl := Option.some.inj h
      exact .interrupt (.inr (.inl hpoint))
    · next hpoint =>
      obtain rfl := Option.some.inj h
      exact .interrupt (.inr (.inr hpoint))
    · cases h

end Steps

/-! ### Where a call can be -/

/-- The caller has not submitted the task for a stream yet. -/
def AwaitOutputPoint.precedes (stream : ProcessStream) : AwaitOutputPoint → Bool
  | submitError => true
  | submitResult => stream = .output
  | _ => false

/-- How the call ends, once that is known. -/
def AwaitOutputPoint.outcome : AwaitOutputPoint → Option AwaitOutcome
  | destroy o | shutdownNow o | done o => some o
  | _ => none

/-- The process has been destroyed. -/
def AwaitOutputPoint.isPastDestroy : AwaitOutputPoint → Bool
  | shutdownNow _ | done _ => true
  | _ => false

/-- A read has thrown an `IOException`. -/
def StreamReader.hasFailed : StreamReader → Bool
  | failed => true
  | _ => false

/-- The outcome, if the caller is not interrupted. -/
def AwaitOutcome.of (written : ProcessStream → List Char) (failed : ProcessStream → Bool) :
    AwaitOutcome :=
  if failed .error then .threwReadFailure
  else if written .error ≠ [] then .threwError (written .error)
  else if failed .output then .threwReadFailure
  else .returned (trim isTrimmed (written .output))

/-- What the readers have come to when the outcome is known. -/
def AwaitOutcome.Justified (reader : ProcessStream → StreamReader) : AwaitOutcome → Prop
  | returned output =>
    reader .error = .ended [] ∧
      ∃ text, reader .output = .ended text ∧ output = trim isTrimmed text
  | threwError error => error ≠ [] ∧ reader .error = .ended error
  | threwReadFailure =>
    reader .error = .failed ∨ reader .error = .ended [] ∧ reader .output = .failed
  | threwInterrupted => False

/-- What a reader has of what was written to its stream. The rest is in the pipe. -/
def StreamReader.Has (written buffer : List Char) (closed : Bool) : StreamReader → Prop
  | unsubmitted => buffer = written
  | reading text => text ++ buffer = written
  | ended text => text = written ∧ closed = true
  | failed => True

/-- What holds of the streams. -/
structure StreamsSound (s : AwaitedProcess) : Prop where
  /-- Nothing is lost between those who write and the readers. -/
  has : ∀ stream,
    (s.reader stream).Has (s.written stream) (s.pipe stream).buffer (s.closed stream)
  /-- What the process has written is there, and nothing else if nobody shares its pipes. -/
  own : ∃ own, s.program = own ++ s.todo ∧ ∀ stream,
    (writtenTo stream own).Sublist (s.written stream) ∧
      (s.others = [] → s.written stream = writtenTo stream own)
  othersTodo : s.others = [] → s.othersTodo = []
  /-- The process does not write to a stream that is closed while it runs. -/
  closed : ∀ stream, s.closed stream = true → s.isRunning = true → writtenTo stream s.todo = []
  exited : s.exited = true → s.todo = []

/-- What holds of the caller. -/
structure CallerSound (s : AwaitedProcess) : Prop where
  unsubmitted : ∀ stream, s.reader stream = .unsubmitted ↔ s.point.precedes stream = true
  destroyed : s.destroyed = s.point.isPastDestroy
  awaited : s.point = .getError ∨ s.point = .getResult → s.exited = true
  noError : s.point = .getResult → s.reader .error = .ended []
  interrupted : s.interrupted = true → s.point.outcome = some .threwInterrupted
  outcome : ∀ o, s.point.outcome = some o → s.interrupted = false →
    s.exited = true ∧ o.Justified s.reader

/-- The invariant of a call. -/
structure InAwait (s : AwaitedProcess) : Prop where
  streams : StreamsSound s
  caller : CallerSound s

theorem writtenTo_append (stream : ProcessStream) (p q : List (ProcessStream × Char)) :
    writtenTo stream (p ++ q) = writtenTo stream p ++ writtenTo stream q := by
  rw [writtenTo, List.filter_append, List.map_append]
  rfl

theorem writtenTo_cons_self (stream : ProcessStream) (c : Char)
    (p : List (ProcessStream × Char)) :
    writtenTo stream ((stream, c) :: p) = c :: writtenTo stream p := by
  simp [writtenTo]

theorem writtenTo_cons_of_ne {stream stream' : ProcessStream} (h : stream' ≠ stream)
    (c : Char) (p : List (ProcessStream × Char)) :
    writtenTo stream ((stream', c) :: p) = writtenTo stream p := by
  simp [writtenTo, h]

section Invariant

variable {s t : AwaitedProcess} {a : AwaitOutputAction} {stream stream' : ProcessStream}
  {written buffer : List Char} {closed : Bool} {r : StreamReader} {c : Char}
  {rest : List (ProcessStream × Char)} {p : Pipe Char}

theorem AwaitedProcess.isRunning_eq_true :
    s.isRunning = true ↔ s.exited = false ∧ s.destroyed = false := by
  simp [AwaitedProcess.isRunning]

theorem AwaitedProcess.isRunning_eq_false :
    s.isRunning = false ↔ s.exited = true ∨ s.destroyed = true := by
  rw [← Bool.not_eq_true, isRunning_eq_true]
  grind

namespace StreamReader.Has

/-- What is written goes into the pipe. -/
theorem append (h : r.Has written buffer false) (c : Char) :
    r.Has (written ++ [c]) (buffer ++ [c]) false := by
  cases r with
  | unsubmitted => exact congrArg (· ++ [c]) h
  | reading text =>
    show text ++ (buffer ++ [c]) = written ++ [c]
    rw [← List.append_assoc, show text ++ buffer = written from h]
  | ended text => exact absurd h.2 Bool.noConfusion
  | failed => trivial

/-- A stream that is closed stays so. -/
theorem close (h : r.Has written buffer closed) : r.Has written buffer true := by
  cases r with
  | ended text => exact ⟨h.1, rfl⟩
  | _ => exact h

end StreamReader.Has

/-! ### The streams -/

namespace StreamsSound

/-- What is put into a pipe is on its way to the reader. -/
theorem has_put (hi : StreamsSound s) (hclosed : s.closed stream = false)
    (hwrite : (s.pipe stream).write c = some p) (stream' : ProcessStream) :
    (s.reader stream').Has
      (Function.update s.written stream (s.written stream ++ [c]) stream')
      (Function.update s.pipe stream p stream').buffer (s.closed stream') := by
  have hreader := hi.has stream'
  by_cases h : stream' = stream
  · subst h
    rw [Function.update_self, Function.update_self, Pipe.buffer_of_write hwrite, hclosed]
    rw [hclosed] at hreader
    exact hreader.append c
  · rw [Function.update_of_ne h, Function.update_of_ne h]
    exact hreader

theorem write (hi : StreamsSound s) (htodo : s.todo = (stream, c) :: rest)
    (hrunning : s.isRunning = true) (hput : PutStep s stream c t) :
    StreamsSound { t with todo := rest } := by
  have hwritten (stream' : ProcessStream) (hclosed : s.closed stream' = true) :
      writtenTo stream' ((stream, c) :: rest) = [] := by
    rw [← htodo]
    exact hi.closed stream' hclosed hrunning
  cases hput with
  | lost hclosed =>
    have hnil := hwritten stream hclosed
    rw [writtenTo_cons_self] at hnil
    cases hnil
  | put hclosed hwrite =>
    have hexited := (AwaitedProcess.isRunning_eq_true.mp hrunning).1
    refine ⟨hi.has_put hclosed hwrite, ?_, hi.othersTodo, fun stream' hclosed' _ => ?_,
      fun h => absurd (h.symm.trans hexited) Bool.noConfusion⟩
    · obtain ⟨own, hprogram, hown⟩ := hi.own
      refine ⟨own ++ [(stream, c)], ?_, fun stream' => ?_⟩
      · rw [hprogram, htodo, List.append_assoc]
        rfl
      · obtain ⟨hsublist, heq⟩ := hown stream'
        show List.Sublist _ (Function.update s.written stream _ stream') ∧
          (_ → Function.update s.written stream _ stream' = _)
        rw [writtenTo_append]
        by_cases h : stream' = stream
        · subst h
          rw [Function.update_self, writtenTo_cons_self]
          exact ⟨hsublist.append_right [c], fun hothers => by rw [heq hothers]; rfl⟩
        · rw [Function.update_of_ne h, writtenTo_cons_of_ne (Ne.symm h)]
          show (writtenTo stream' own ++ []).Sublist _ ∧ (_ → _ = writtenTo stream' own ++ [])
          rw [List.append_nil]
          exact ⟨hsublist, heq⟩
    · have hnil := hwritten stream' hclosed'
      by_cases h : stream = stream'
      · rw [h, writtenTo_cons_self] at hnil
        cases hnil
      · rwa [writtenTo_cons_of_ne h] at hnil

theorem othersWrite (hi : StreamsSound s) (htodo : s.othersTodo = (stream, c) :: rest)
    (hput : PutStep s stream c t) : StreamsSound { t with othersTodo := rest } := by
  have hothers : s.others ≠ [] := by
    intro hnil
    rw [hi.othersTodo hnil] at htodo
    cases htodo
  cases hput with
  | lost => exact ⟨hi.has, hi.own, fun h => absurd h hothers, hi.closed, hi.exited⟩
  | put hclosed hwrite =>
    obtain ⟨own, hprogram, hown⟩ := hi.own
    refine ⟨hi.has_put hclosed hwrite, ⟨own, hprogram, fun stream' => ?_⟩,
      fun h => absurd h hothers, hi.closed, hi.exited⟩
    refine ⟨(hown stream').1.trans ?_, fun h => absurd h hothers⟩
    show List.Sublist _ (Function.update s.written stream _ stream')
    by_cases h : stream' = stream
    · subst h
      rw [Function.update_self]
      exact List.sublist_append_left _ _
    · rw [Function.update_of_ne h]

theorem close (hi : StreamsSound s)
    (hover : s.isRunning = false ∨ writtenTo stream s.todo = []) :
    StreamsSound { s with closed := Function.update s.closed stream true } := by
  refine ⟨fun stream' => ?_, hi.own, hi.othersTodo, fun stream' hclosed hrunning => ?_, hi.exited⟩
  · show (s.reader stream').Has _ _ (Function.update s.closed stream true stream')
    by_cases h : stream' = stream
    · subst h
      rw [Function.update_self]
      exact (hi.has stream').close
    · rw [Function.update_of_ne h]
      exact hi.has stream'
  · by_cases h : stream' = stream
    · subst h
      exact hover.resolve_left fun hstopped => by
        rw [show s.isRunning = true from hrunning] at hstopped
        cases hstopped
    · replace hclosed : Function.update s.closed stream true stream' = true := hclosed
      rw [Function.update_of_ne h] at hclosed
      exact hi.closed stream' hclosed hrunning

/-- Where the caller is does not matter to the streams. -/
theorem goOn {point : AwaitOutputPoint} (hi : StreamsSound s) :
    StreamsSound { s with point := point } :=
  ⟨hi.has, hi.own, hi.othersTodo, hi.closed, hi.exited⟩

/-- The process is over. -/
theorem stop (hi : StreamsSound s) (hpipes : t.pipe = s.pipe ∧ t.written = s.written ∧
      t.closed = s.closed ∧ t.reader = s.reader)
    (hprograms : t.program = s.program ∧ t.todo = s.todo ∧ t.others = s.others ∧
      t.othersTodo = s.othersTodo)
    (hrunning : t.isRunning = false) (hexited : t.exited = true → s.todo = []) :
    StreamsSound t := by
  obtain ⟨hpipe, hwritten, hclosed, hreader⟩ := hpipes
  obtain ⟨hprogram, htodo, hothers, hothersTodo⟩ := hprograms
  refine ⟨?_, ?_, ?_, fun _ _ h => absurd (h.symm.trans hrunning) Bool.noConfusion, ?_⟩
  · rw [hpipe, hwritten, hclosed, hreader]
    exact hi.has
  · rw [hprogram, htodo, hothers, hwritten]
    exact hi.own
  · rw [hothers, hothersTodo]
    exact hi.othersTodo
  · rw [htodo]
    exact hexited

/-- A reader goes on. -/
theorem setReader {pipe : ProcessStream → Pipe Char} {point : AwaitOutputPoint}
    (hi : StreamsSound s)
    (hpipe : ∀ stream', stream' ≠ stream → pipe stream' = s.pipe stream')
    (hhas : r.Has (s.written stream) (pipe stream).buffer (s.closed stream)) :
    StreamsSound { s.setReader stream r with pipe := pipe, point := point } := by
  refine ⟨fun stream' => ?_, hi.own, hi.othersTodo, hi.closed, hi.exited⟩
  show (Function.update s.reader stream r stream').Has _ (pipe stream').buffer _
  by_cases h : stream' = stream
  · subst h
    rw [Function.update_self]
    exact hhas
  · rw [Function.update_of_ne h, hpipe stream' h]
    exact hi.has stream'

end StreamsSound

/-! ### The caller -/

/-- A reader that goes on has not been the reason of an outcome. -/
theorem AwaitOutcome.Justified.update {o : AwaitOutcome} {reader : ProcessStream → StreamReader}
    {text : List Char} (h : o.Justified reader) (hreader : reader stream = .reading text) :
    o.Justified (Function.update reader stream r) := by
  have hother {stream' : ProcessStream} {r' : StreamReader} (hr : reader stream' = r')
      (hne : r' ≠ .reading text) : Function.update reader stream r stream' = r' := by
    rw [Function.update_of_ne, hr]
    rintro rfl
    exact hne (hr.symm.trans hreader)
  cases o with
  | returned output =>
    obtain ⟨herror, text', houtput, heq⟩ := h
    exact ⟨hother herror nofun, text', hother houtput nofun, heq⟩
  | threwError error => exact ⟨h.1, hother h.2 nofun⟩
  | threwReadFailure =>
    exact h.imp (fun h => hother h nofun) fun h => ⟨hother h.1 nofun, hother h.2 nofun⟩
  | threwInterrupted => exact h

namespace CallerSound

/-- In a call that has not been decided yet nothing has gone wrong. -/
theorem of_outcome_eq_none (hi : CallerSound s) (h : s.point.outcome = none) :
    s.interrupted = false ∧ s.destroyed = false := by
  constructor
  · refine Bool.eq_false_of_not_eq_true fun hinterrupted => ?_
    rw [hi.interrupted hinterrupted] at h
    cases h
  · rw [hi.destroyed]
    cases hpoint : s.point with
    | destroy o | shutdownNow o | done o =>
      rw [hpoint] at h
      cases h
    | _ => rfl

theorem exit (hi : CallerSound s) : CallerSound { s with exited := true } :=
  ⟨hi.unsubmitted, hi.destroyed, fun _ => rfl, hi.noError, hi.interrupted,
    fun o ho hinterrupted => ⟨rfl, (hi.outcome o ho hinterrupted).2⟩⟩

/-- A reader goes on. -/
theorem setReader {text : List Char} {pipe : ProcessStream → Pipe Char} (hi : CallerSound s)
    (hreader : s.reader stream = .reading text) (hr : r ≠ .unsubmitted) :
    CallerSound { s.setReader stream r with pipe := pipe } := by
  have hother (stream' : ProcessStream) (h : stream' ≠ stream) :
      (s.setReader stream r).reader stream' = s.reader stream' := Function.update_of_ne h ..
  refine ⟨fun stream' => ?_, hi.destroyed, hi.awaited, fun hpoint => ?_, hi.interrupted,
    fun o ho hinterrupted => ?_⟩
  · show (s.setReader stream r).reader stream' = _ ↔ s.point.precedes stream' = true
    rw [← hi.unsubmitted stream']
    by_cases h : stream' = stream
    · rw [h, hreader]
      have hself : (s.setReader stream r).reader stream = r := Function.update_self ..
      rw [hself]
      exact iff_of_false hr StreamReader.noConfusion
    · rw [hother stream' h]
  · have hnoError := hi.noError hpoint
    -- The reader of the error output has come to its end.
    rw [show (s.setReader stream r).reader .error = s.reader .error from hother _ fun h => by
      rw [h, hreader] at hnoError
      cases hnoError]
    exact hnoError
  · obtain ⟨hexited, hjustified⟩ := hi.outcome o ho hinterrupted
    exact ⟨hexited, hjustified.update hreader⟩

/-- The caller goes on while both streams are read. -/
theorem goOn {point : AwaitOutputPoint} (hi : CallerSound s) (hnone : s.point.outcome = none)
    (hprecedes : ∀ stream, s.point.precedes stream = false ∧ point.precedes stream = false)
    (hpast : point.isPastDestroy = false)
    (hawaited : point = .getError ∨ point = .getResult → s.exited = true)
    (hnoError : point = .getResult → s.reader .error = .ended [])
    (houtcome : ∀ o, point.outcome = some o → s.exited = true ∧ o.Justified s.reader) :
    CallerSound { s with point := point } := by
  obtain ⟨hinterrupted, hdestroyed⟩ := hi.of_outcome_eq_none hnone
  refine ⟨fun stream => ?_, hdestroyed.trans hpast.symm, hawaited, hnoError, fun h => ?_,
    fun o ho _ => houtcome o ho⟩
  · rw [hi.unsubmitted stream, (hprecedes stream).1]
    exact Bool.eq_iff_iff.mp (hprecedes stream).2.symm
  · exact absurd (h.symm.trans hinterrupted) Bool.noConfusion

/-- The caller submits a task. -/
theorem submit {point : AwaitOutputPoint} (hi : CallerSound s) (hnone : s.point.outcome = none)
    (hp : point.precedes stream = false)
    (hother : ∀ stream', stream' ≠ stream → point.precedes stream' = s.point.precedes stream')
    (hsubmitting : point = .submitResult ∨ point = .waitFor) :
    CallerSound { s.setReader stream (.reading []) with point := point } := by
  obtain ⟨hinterrupted, hdestroyed⟩ := hi.of_outcome_eq_none hnone
  obtain ⟨hpast, houtcome, hget⟩ : point.isPastDestroy = false ∧ point.outcome = none ∧
      point ≠ .getError ∧ point ≠ .getResult := by
    obtain rfl | rfl := hsubmitting
    · exact ⟨rfl, rfl, nofun, nofun⟩
    · exact ⟨rfl, rfl, nofun, nofun⟩
  refine ⟨fun stream' => ?_, hdestroyed.trans hpast.symm, fun h => absurd h (not_or.mpr hget),
    fun h => absurd h hget.2, fun h => absurd (h.symm.trans hinterrupted) Bool.noConfusion,
    fun o ho => absurd (houtcome.symm.trans ho) nofun⟩
  show Function.update s.reader stream _ stream' = _ ↔ point.precedes stream' = true
  by_cases h : stream' = stream
  · subst h
    rw [Function.update_self, hp]
    exact iff_of_false StreamReader.noConfusion Bool.noConfusion
  · rw [Function.update_of_ne h, hother stream' h]
    exact hi.unsubmitted stream'

theorem waitFor (hi : CallerSound s) (hpoint : s.point = .waitFor)
    (hrunning : s.isRunning = false) : CallerSound { s with point := .getError } := by
  have hnone : s.point.outcome = none := by rw [hpoint]; rfl
  have hexited : s.exited = true :=
    (AwaitedProcess.isRunning_eq_false.mp hrunning).resolve_right fun h =>
      absurd (h.symm.trans (hi.of_outcome_eq_none hnone).2) Bool.noConfusion
  exact hi.goOn hnone (fun _ => ⟨by rw [hpoint]; rfl, rfl⟩) rfl (fun _ => hexited) nofun nofun

theorem getError {error : List Char} (hi : CallerSound s) (hpoint : s.point = .getError)
    (hreader : s.reader .error = .ended error) : CallerSound
      { s with point := if error ≠ [] then .destroy (.threwError error) else .getResult } := by
  have hexited := hi.awaited (.inl hpoint)
  have hnone : s.point.outcome = none := by rw [hpoint]; rfl
  by_cases h : error ≠ []
  · rw [if_pos h]
    refine hi.goOn hnone (fun _ => ⟨by rw [hpoint]; rfl, rfl⟩) rfl (fun _ => hexited) nofun
      fun o ho => ⟨hexited, ?_⟩
    obtain rfl := Option.some.inj ho
    exact ⟨h, hreader⟩
  · rw [if_neg h]
    refine hi.goOn hnone (fun _ => ⟨by rw [hpoint]; rfl, rfl⟩) rfl (fun _ => hexited)
      (fun _ => ?_) nofun
    rw [hreader, not_not.mp h]

/-- The outcome is known when both tasks have been waited for, or the first has failed. -/
theorem decided {o : AwaitOutcome} (hi : CallerSound s)
    (hpoint : s.point = .getError ∨ s.point = .getResult) (ho : o.Justified s.reader) :
    CallerSound { s with point := .destroy o } := by
  have hexited := hi.awaited hpoint
  have hbefore (stream : ProcessStream) :
      s.point.outcome = none ∧ s.point.precedes stream = false := by
    obtain h | h := hpoint <;> exact ⟨by rw [h]; rfl, by rw [h]; rfl⟩
  refine hi.goOn (hbefore .output).1 (fun stream => ⟨(hbefore stream).2, rfl⟩) rfl
    (fun _ => hexited) nofun fun o' ho' => ⟨hexited, ?_⟩
  obtain rfl := Option.some.inj ho'
  exact ho

theorem destroy {o : AwaitOutcome} (hi : CallerSound s) (hpoint : s.point = .destroy o) :
    CallerSound { s with destroyed := true, point := .shutdownNow o } := by
  refine ⟨fun stream => ?_, rfl, nofun, nofun, fun h => ?_, fun o' ho => hi.outcome o' ?_⟩
  · rw [hi.unsubmitted, hpoint]
    exact Iff.rfl
  · have houtcome := hi.interrupted h
    rwa [hpoint] at houtcome
  · rwa [hpoint]

theorem shutdownNow {o : AwaitOutcome} (hi : CallerSound s) (hpoint : s.point = .shutdownNow o) :
    CallerSound { s with point := .done o } := by
  refine ⟨fun stream => ?_, ?_, nofun, nofun, fun h => ?_, fun o' ho => hi.outcome o' ?_⟩
  · rw [hi.unsubmitted, hpoint]
    exact Iff.rfl
  · show s.destroyed = true
    rw [hi.destroyed, hpoint]
    rfl
  · have houtcome := hi.interrupted h
    rwa [hpoint] at houtcome
  · rwa [hpoint]

theorem interrupt (hi : CallerSound s)
    (hpoint : s.point = .waitFor ∨ s.point = .getError ∨ s.point = .getResult) :
    CallerSound { s with point := .destroy .threwInterrupted, interrupted := true } := by
  have hsubmitted (stream : ProcessStream) :
      s.point.outcome = none ∧ s.point.precedes stream = false := by
    obtain h | h | h := hpoint <;> exact ⟨by rw [h]; rfl, by rw [h]; rfl⟩
  refine ⟨fun stream => ?_, ?_, nofun, nofun, fun _ => rfl,
    fun o _ h => Bool.noConfusion (show true = false from h)⟩
  · rw [hi.unsubmitted, (hsubmitted stream).2]
    exact Iff.rfl
  · exact (hi.of_outcome_eq_none (hsubmitted .output).1).2

end CallerSound

/-! ### The call -/

namespace InAwait

/-- The tasks are submitted one after the other. -/
theorem submit {point : AwaitOutputPoint} (hi : InAwait s) (hnone : s.point.outcome = none)
    (hprecedes : s.point.precedes stream = true) (hp : point.precedes stream = false)
    (hother : ∀ stream', stream' ≠ stream → point.precedes stream' = s.point.precedes stream')
    (hsubmitting : point = .submitResult ∨ point = .waitFor) :
    InAwait { s.setReader stream (.reading []) with point := point } := by
  refine ⟨hi.streams.setReader (fun _ _ => rfl) ?_,
    hi.caller.submit hnone hp hother hsubmitting⟩
  have hunsubmitted := hi.streams.has stream
  rw [(hi.caller.unsubmitted stream).mpr hprecedes] at hunsubmitted
  exact hunsubmitted

/-- A reader goes on. -/
theorem setReader {text : List Char} {pipe : ProcessStream → Pipe Char} (hi : InAwait s)
    (hreader : s.reader stream = .reading text) (hr : r ≠ .unsubmitted)
    (hpipe : ∀ stream', stream' ≠ stream → pipe stream' = s.pipe stream')
    (hhas : text ++ (s.pipe stream).buffer = s.written stream →
      r.Has (s.written stream) (pipe stream).buffer (s.closed stream)) :
    InAwait { s.setReader stream r with pipe := pipe } := by
  have hreading := hi.streams.has stream
  rw [hreader] at hreading
  exact ⟨hi.streams.setReader hpipe (hhas hreading), hi.caller.setReader hreader hr⟩

/-- Every step keeps the invariant. -/
theorem step (hi : InAwait s) (h : AwaitOutputStep s a t) : InAwait t := by
  cases h with
  | write htodo hrunning hput =>
    refine ⟨hi.streams.write htodo hrunning hput, ?_⟩
    cases hput <;> exact ⟨hi.caller.unsubmitted, hi.caller.destroyed, hi.caller.awaited,
      hi.caller.noError, hi.caller.interrupted, hi.caller.outcome⟩
  | othersWrite htodo hput =>
    refine ⟨hi.streams.othersWrite htodo hput, ?_⟩
    cases hput <;> exact ⟨hi.caller.unsubmitted, hi.caller.destroyed, hi.caller.awaited,
      hi.caller.noError, hi.caller.interrupted, hi.caller.outcome⟩
  | exit hrunning htodo =>
    exact ⟨hi.streams.stop ⟨rfl, rfl, rfl, rfl⟩ ⟨rfl, rfl, rfl, rfl⟩ rfl fun _ => htodo,
      hi.caller.exit⟩
  | close hopen hover =>
    exact ⟨hi.streams.close hover, hi.caller.unsubmitted, hi.caller.destroyed, hi.caller.awaited,
      hi.caller.noError, hi.caller.interrupted, hi.caller.outcome⟩
  | closeEarly hopen hrunning =>
    exact ⟨hi.streams.close (.inl hrunning), hi.caller.unsubmitted, hi.caller.destroyed,
      hi.caller.awaited, hi.caller.noError, hi.caller.interrupted, hi.caller.outcome⟩
  | read hreader hread =>
    refine hi.setReader hreader StreamReader.noConfusion
      (fun stream' h => Function.update_of_ne h ..) fun hwritten => ?_
    rw [Function.update_self]
    show _ = s.written _
    rw [← hwritten, Pipe.buffer_of_read hread, List.append_assoc]
    rfl
  | endRead hreader hread hclosed =>
    refine hi.setReader hreader StreamReader.noConfusion (fun _ _ => rfl) fun hwritten => ?_
    refine ⟨?_, hclosed⟩
    rw [← hwritten, Pipe.buffer_of_read_eq_none hread, List.append_nil]
  | readFails hreader =>
    exact hi.setReader hreader StreamReader.noConfusion (fun _ _ => rfl) fun _ => trivial
  | submitError hpoint =>
    refine hi.submit (by rw [hpoint]; rfl) (by rw [hpoint]; rfl) rfl (fun stream h => ?_) (.inl rfl)
    rw [hpoint]
    cases stream with
    | output => rfl
    | error => exact absurd rfl h
  | submitResult hpoint =>
    refine hi.submit (by rw [hpoint]; rfl) (by rw [hpoint]; rfl) rfl (fun stream h => ?_) (.inr rfl)
    rw [hpoint]
    cases stream with
    | output => exact absurd rfl h
    | error => rfl
  | waitFor hpoint hrunning => exact ⟨hi.streams.goOn, hi.caller.waitFor hpoint hrunning⟩
  | getError hpoint hreader => exact ⟨hi.streams.goOn, hi.caller.getError hpoint hreader⟩
  | getErrorFails hpoint hreader =>
    exact ⟨hi.streams.goOn, hi.caller.decided (.inl hpoint) (.inl hreader)⟩
  | getResult hpoint hreader =>
    exact ⟨hi.streams.goOn, hi.caller.decided (.inr hpoint)
      ⟨hi.caller.noError hpoint, _, hreader, rfl⟩⟩
  | getResultFails hpoint hreader =>
    exact ⟨hi.streams.goOn, hi.caller.decided (.inr hpoint)
      (.inr ⟨hi.caller.noError hpoint, hreader⟩)⟩
  | destroy hpoint =>
    refine ⟨hi.streams.stop ⟨rfl, rfl, rfl, rfl⟩ ⟨rfl, rfl, rfl, rfl⟩ ?_ hi.streams.exited,
      hi.caller.destroy hpoint⟩
    exact AwaitedProcess.isRunning_eq_false.mpr (.inr rfl)
  | shutdownNow hpoint => exact ⟨hi.streams.goOn, hi.caller.shutdownNow hpoint⟩
  | interrupt hpoint =>
    exact ⟨⟨hi.streams.has, hi.streams.own, hi.streams.othersTodo, hi.streams.closed,
      hi.streams.exited⟩, hi.caller.interrupt hpoint⟩

/-- The outcome, by what was written and the reads that failed. -/
theorem eq_of {o : AwaitOutcome} (hi : InAwait s) (ho : s.point.outcome = some o)
    (hinterrupted : s.interrupted = false) :
    o = .of s.written fun stream => (s.reader stream).hasFailed := by
  have hended {stream : ProcessStream} {text : List Char} (h : s.reader stream = .ended text) :
      s.written stream = text ∧ (s.reader stream).hasFailed = false := by
    have htext := hi.streams.has stream
    rw [h] at htext
    exact ⟨htext.1.symm, by rw [h]; rfl⟩
  have hfailed {stream : ProcessStream} (h : s.reader stream = .failed) :
      (s.reader stream).hasFailed = true := by
    rw [h]
    rfl
  obtain ⟨-, hjustified⟩ := hi.caller.outcome o ho hinterrupted
  rw [AwaitOutcome.of]
  cases o with
  | returned output =>
    obtain ⟨herror, text, houtput, rfl⟩ := hjustified
    rw [(hended herror).1, (hended herror).2, (hended houtput).1, (hended houtput).2]
    rfl
  | threwError error =>
    obtain ⟨hne, herror⟩ := hjustified
    rw [(hended herror).1, (hended herror).2, if_neg Bool.false_ne_true, if_pos hne]
  | threwReadFailure =>
    obtain herror | ⟨herror, houtput⟩ := hjustified
    · rw [hfailed herror, if_pos rfl]
    · rw [(hended herror).1, (hended herror).2, hfailed houtput]
      rfl
  | threwInterrupted => exact hjustified.elim

end InAwait

theorem inAwait_of_reachable (h : awaitMachine.Reachable s) : InAwait s := by
  refine h.invariant ?_ fun s a t _ hi _ hst => hi.step (awaitOutputStep_of_step hst)
  rintro _ ⟨program, others, terminates, letGo, pipe, hempty, rfl⟩
  refine ⟨⟨hempty, ⟨[], rfl, fun _ => ⟨List.Sublist.slnil, fun _ => rfl⟩⟩, id, nofun, nofun⟩,
    fun stream => ?_, rfl, nofun, nofun, nofun, nofun⟩
  exact iff_of_true rfl rfl

end Invariant

/-! ### Nobody waits for ever -/

/-- A task that has come to its end. -/
def StreamReader.isOver : StreamReader → Bool
  | ended _ | failed => true
  | _ => false

/-- The call has ended, and so has every thread that it started. -/
def AwaitedProcess.Finished (s : AwaitedProcess) : Prop :=
  (∃ o, s.point = .done o) ∧ ∀ stream, (s.reader stream).isOver = true

/-- Nobody writes any more. -/
def AwaitedProcess.isQuiet (s : AwaitedProcess) : Bool := !s.isRunning && s.othersTodo.isEmpty

/-- A read that fails leaves nobody behind who writes to its pipe. -/
def AwaitOutputAction.FailsQuietly (s : AwaitedProcess) : AwaitOutputAction → Prop
  | readFails _ => s.isQuiet = true
  | _ => True

/-- Nobody can rely on a stream that is closed early. -/
def AwaitOutputAction.isReliedOn : AwaitOutputAction → Bool
  | closeEarly _ => false
  | _ => true

/-- How many steps a reader has left, apart from what it reads. -/
def StreamReader.left : StreamReader → ℕ
  | unsubmitted => 2
  | reading _ => 1
  | _ => 0

/-- How many steps the caller has left, at most. -/
def AwaitOutputPoint.left : AwaitOutputPoint → ℕ
  | submitError => 7
  | submitResult => 6
  | waitFor => 5
  | getError => 4
  | getResult => 3
  | destroy _ => 2
  | shutdownNow _ => 1
  | done _ => 0

/-- What is left to be done for a stream. What has been written is still to be read. -/
def AwaitedProcess.left (s : AwaitedProcess) (stream : ProcessStream) : ℕ :=
  (s.reader stream).left + (s.pipe stream).buffer.length + if s.closed stream then 0 else 1

/-- What is left to be done. -/
def AwaitedProcess.distance (s : AwaitedProcess) : ℕ :=
  2 * s.todo.length + 2 * s.othersTodo.length + (if s.exited then 0 else 1) + s.left .output +
    s.left .error + s.point.left

/-- What is promised of a call. -/
structure AwaitsOutput (s : AwaitedProcess) : Prop where
  /-- The call throws the failure of a read, or all of the error output if there is any, or returns
  all of the output, less the spaces around it; and the process has come to its end. -/
  outcome : ∀ o, s.point = .done o → s.interrupted = false →
    s.exited = true ∧ o = .of s.written fun stream => (s.reader stream).hasFailed
  /-- All that the process writes is among what was written when it has come to its end, and there
  is nothing else if nobody shares its pipes. -/
  complete : s.exited = true → ∀ stream,
    (writtenTo stream s.program).Sublist (s.written stream) ∧
      (s.others = [] → s.written stream = writtenTo stream s.program)
  interrupted : ∀ o, s.point = .done o → s.interrupted = true → o = .threwInterrupted
  destroyed : ∀ o, s.point = .done o → s.destroyed = true
  /-- If the process comes to its end by itself, and those that share its pipes let go of them, the
  call ends, and so do the threads, unless a read fails while somebody still writes. -/
  finishes : s.terminates = true → s.letGo = true →
    (∀ stream, s.reader stream = .failed → s.isQuiet = true) →
      awaitMachine.InevitableFor (fun s a => a.FailsQuietly s) AwaitOutputAction.isReliedOn
        AwaitedProcess.Finished s

section Progress

variable {s t : AwaitedProcess} {a : AwaitOutputAction} {stream : ProcessStream}

/-! ### Closer to the end -/

theorem AwaitedProcess.left_add
    (h : ∀ stream', stream' ≠ stream → t.left stream' = s.left stream') :
    t.left .output + t.left .error + s.left stream =
      s.left .output + s.left .error + t.left stream := by
  cases stream with
  | output => rw [h .error ProcessStream.noConfusion]; omega
  | error => rw [h .output ProcessStream.noConfusion]; omega

section Reader

variable {r : StreamReader} {pipe : ProcessStream → Pipe Char} {stream' : ProcessStream}
  {p : AwaitOutputPoint}

theorem AwaitedProcess.left_of_reader (h : s.reader stream = r) :
    s.left stream = r.left + (s.pipe stream).buffer.length +
      if s.closed stream then 0 else 1 := by
  rw [AwaitedProcess.left, h]

theorem AwaitedProcess.left_setReader_self :
    AwaitedProcess.left { s.setReader stream r with pipe := pipe, point := p } stream =
      r.left + (pipe stream).buffer.length + if s.closed stream then 0 else 1 :=
  AwaitedProcess.left_of_reader (Function.update_self ..)

theorem AwaitedProcess.left_setReader_of_ne (h : stream' ≠ stream)
    (hpipe : pipe stream' = s.pipe stream') :
    AwaitedProcess.left { s.setReader stream r with pipe := pipe, point := p } stream' =
      s.left stream' := by
  show (Function.update s.reader stream r stream').left + (pipe stream').buffer.length + _ = _
  rw [Function.update_of_ne h, hpipe]
  rfl

/-- A reader that goes on, or is started, brings the end closer. -/
theorem AwaitedProcess.distance_setReader_lt
    (hpipe : ∀ stream', stream' ≠ stream → pipe stream' = s.pipe stream')
    (hlt : r.left + (pipe stream).buffer.length + p.left <
      (s.reader stream).left + (s.pipe stream).buffer.length + s.point.left) :
    AwaitedProcess.distance { s.setReader stream r with pipe := pipe, point := p } <
      s.distance := by
  have hsum := @AwaitedProcess.left_add s { s.setReader stream r with pipe := pipe, point := p }
    stream fun stream' h => left_setReader_of_ne h (hpipe stream' h)
  have hleft : s.left stream = (s.reader stream).left + (s.pipe stream).buffer.length +
      if s.closed stream then 0 else 1 := rfl
  rw [left_setReader_self] at hsum
  show 2 * s.todo.length + 2 * s.othersTodo.length + (if s.exited then 0 else 1) +
    AwaitedProcess.left { s.setReader stream r with pipe := pipe, point := p } .output +
    AwaitedProcess.left { s.setReader stream r with pipe := pipe, point := p } .error + p.left < _
  rw [AwaitedProcess.distance]
  omega

end Reader

/-- So does the caller when it goes on. -/
theorem AwaitedProcess.distance_goOn_lt {p : AwaitOutputPoint} (h : p.left < s.point.left) :
    AwaitedProcess.distance { s with point := p } < s.distance :=
  Nat.add_lt_add_left h _

/-- What is put into a pipe has to be read. -/
theorem PutStep.left_le {c : Char} (h : PutStep s stream c t) :
    t.left .output + t.left .error ≤ s.left .output + s.left .error + 1 ∧
      t.todo = s.todo ∧ t.othersTodo = s.othersTodo ∧ t.exited = s.exited ∧
      t.point = s.point := by
  cases h with
  | lost => exact ⟨Nat.le_succ _, rfl, rfl, rfl, rfl⟩
  | @put p hclosed hwrite =>
    refine ⟨?_, rfl, rfl, rfl, rfl⟩
    have hsum := @AwaitedProcess.left_add s { s with
      pipe := Function.update s.pipe stream p
      written := Function.update s.written stream (s.written stream ++ [c]) }
      stream fun stream' h => by simp only [AwaitedProcess.left, Function.update_of_ne h]
    have hself : AwaitedProcess.left { s with
        pipe := Function.update s.pipe stream p
        written := Function.update s.written stream (s.written stream ++ [c]) } stream =
          s.left stream + 1 := by
      simp only [AwaitedProcess.left, Function.update_self, Pipe.buffer_of_write hwrite,
        List.length_append, List.length_singleton]
      omega
    omega

/-- A stream that is closed has one step less left. -/
theorem AwaitedProcess.distance_close_lt (hopen : s.closed stream = false) :
    AwaitedProcess.distance { s with closed := Function.update s.closed stream true } <
      s.distance := by
  have hsum := @AwaitedProcess.left_add s
    { s with closed := Function.update s.closed stream true } stream fun stream' h => by
      simp only [AwaitedProcess.left, Function.update_of_ne h]
  have hself : AwaitedProcess.left
      { s with closed := Function.update s.closed stream true } stream + 1 = s.left stream := by
    simp only [AwaitedProcess.left, Function.update_self, hopen, if_true, Bool.false_eq_true,
      if_false]
  simp only [AwaitedProcess.distance]
  omega

/-- Every step brings the end closer. -/
theorem AwaitOutputStep.distance_lt (h : AwaitOutputStep s a t) (hi : InAwait s) :
    t.distance < s.distance := by
  cases h with
  | write htodo hrunning hput =>
    obtain ⟨hle, -, hothers, hexited, hpoint⟩ := hput.left_le
    show 2 * List.length _ + 2 * List.length _ + _ + AwaitedProcess.left _ .output +
      AwaitedProcess.left _ .error + AwaitOutputPoint.left _ < _
    rw [AwaitedProcess.distance, htodo, List.length_cons, hothers, hexited, hpoint]
    simp only [AwaitedProcess.left] at hle ⊢
    omega
  | othersWrite htodo hput =>
    obtain ⟨hle, htodo', -, hexited, hpoint⟩ := hput.left_le
    show 2 * List.length _ + 2 * List.length _ + _ + AwaitedProcess.left _ .output +
      AwaitedProcess.left _ .error + AwaitOutputPoint.left _ < _
    rw [AwaitedProcess.distance, htodo, List.length_cons, htodo', hexited, hpoint]
    simp only [AwaitedProcess.left] at hle ⊢
    omega
  | exit hrunning htodo =>
    have hexited := (AwaitedProcess.isRunning_eq_true.mp hrunning).1
    show 2 * s.todo.length + 2 * s.othersTodo.length + 0 + s.left .output + s.left .error +
      s.point.left < _
    rw [AwaitedProcess.distance, hexited, if_neg Bool.noConfusion]
    omega
  | close hopen | closeEarly hopen => exact AwaitedProcess.distance_close_lt hopen
  | read hreader hread =>
    refine AwaitedProcess.distance_setReader_lt (fun stream' h => Function.update_of_ne h ..) ?_
    rw [hreader, Function.update_self, Pipe.buffer_of_read hread, List.length_cons]
    simp only [StreamReader.left, AwaitedProcess.setReader]
    omega
  | endRead hreader | readFails hreader =>
    refine AwaitedProcess.distance_setReader_lt (fun _ _ => rfl) ?_
    rw [hreader]
    exact Nat.add_lt_add_right (Nat.add_lt_add_right Nat.one_pos _) _
  | submitError hpoint =>
    refine AwaitedProcess.distance_setReader_lt (fun _ _ => rfl) ?_
    rw [(hi.caller.unsubmitted .error).mpr (by rw [hpoint]; rfl), hpoint]
    simp only [StreamReader.left, AwaitOutputPoint.left, AwaitedProcess.setReader]
    omega
  | submitResult hpoint =>
    refine AwaitedProcess.distance_setReader_lt (fun _ _ => rfl) ?_
    rw [(hi.caller.unsubmitted .output).mpr (by rw [hpoint]; rfl), hpoint]
    simp only [StreamReader.left, AwaitOutputPoint.left, AwaitedProcess.setReader]
    omega
  | waitFor hpoint | getResult hpoint | getResultFails hpoint | shutdownNow hpoint
  | destroy hpoint =>
    refine AwaitedProcess.distance_goOn_lt ?_
    rw [hpoint]
    exact Nat.lt_succ_self _
  | @getError error hpoint hreader =>
    refine AwaitedProcess.distance_goOn_lt ?_
    rw [hpoint]
    split
    · show 2 < 4
      omega
    · exact Nat.lt_succ_self _
  | getErrorFails hpoint =>
    refine AwaitedProcess.distance_goOn_lt ?_
    rw [hpoint]
    show 2 < 4
    omega
  | interrupt hpoint =>
    show (AwaitedProcess.distance { s with point := .destroy .threwInterrupted }) < _
    refine AwaitedProcess.distance_goOn_lt ?_
    obtain h | h | h := hpoint
    · rw [h]; show 2 < 5; omega
    · rw [h]; show 2 < 4; omega
    · rw [h]; exact Nat.lt_succ_self _

/-! ### Somebody can go on -/

/-- Somebody can go on, and no read has to fail for it. -/
def AwaitedProcess.CanGoOn (s : AwaitedProcess) : Prop :=
  ∃ a t, a.isReliedOn = true ∧ a.FailsQuietly s ∧ awaitMachine.step s a = some t

theorem canGoOn_of_caller (h : s.callerStep.isSome = true) : s.CanGoOn := by
  obtain ⟨t, ht⟩ := Option.isSome_iff_exists.mp h
  exact ⟨.caller, t, rfl, trivial, ht⟩

/-- A reader can go on, unless it waits for what is written to its stream. -/
theorem canGoOn_of_reading {text : List Char} (hreader : s.reader stream = .reading text)
    (h : s.closed stream = false → (s.pipe stream).buffer ≠ []) : s.CanGoOn := by
  refine ⟨.read stream, ?_⟩
  show ∃ t, true = true ∧ True ∧ s.readStep stream = some t
  rw [AwaitedProcess.readStep, hreader]
  show ∃ t, true = true ∧ True ∧ (match (s.pipe stream).read with
    | some (c, p) => _
    | none => _) = some t
  cases hread : (s.pipe stream).read with
  | some cp => exact ⟨_, rfl, trivial, rfl⟩
  | none =>
    have hclosed : s.closed stream = true := Bool.eq_true_of_not_eq_false fun hopen =>
      h hopen (Pipe.buffer_of_read_eq_none hread)
    show ∃ t, true = true ∧ True ∧ (if s.closed stream = true then _ else none) = some t
    rw [if_pos hclosed]
    exact ⟨_, rfl, trivial, rfl⟩

/-- Somebody can write, or there is something to read. -/
theorem exists_put (s : AwaitedProcess) (stream : ProcessStream) (c : Char) :
    (∃ t, s.put stream c = some t) ∨
      s.closed stream = false ∧ (s.pipe stream).buffer ≠ [] := by
  rw [AwaitedProcess.put]
  cases hclosed : s.closed stream with
  | true => exact .inl ⟨s, rfl⟩
  | false =>
    cases hwrite : (s.pipe stream).write c with
    | some p => exact .inl ⟨_, rfl⟩
    | none =>
      obtain ⟨b, q, hread⟩ := Pipe.exists_read hwrite
      refine .inr ⟨rfl, ?_⟩
      rw [Pipe.buffer_of_read hread]
      exact List.cons_ne_nil b q.buffer

namespace InAwait

/-- The reader of a stream that is open goes on reading. -/
theorem canGoOn_of_open (hi : InAwait s) (hsubmitted : s.reader stream ≠ .unsubmitted)
    (hfailed : s.reader stream ≠ .failed) (hopen : s.closed stream = false)
    (hbuffer : (s.pipe stream).buffer ≠ []) : s.CanGoOn := by
  cases hreader : s.reader stream with
  | unsubmitted => exact absurd hreader hsubmitted
  | failed => exact absurd hreader hfailed
  | reading text => exact canGoOn_of_reading hreader fun _ => hbuffer
  | ended text =>
    have hhas := hi.streams.has stream
    rw [hreader] at hhas
    exact absurd (hopen.symm.trans hhas.2) Bool.noConfusion

/-- The process runs: it can write, or the stream can be read, or it comes to its end. -/
theorem canGoOn_of_running (hi : InAwait s) (hterminates : s.terminates = true)
    (hsubmitted : ∀ stream, s.reader stream ≠ .unsubmitted)
    (hquiet : ∀ stream, s.reader stream = .failed → s.isQuiet = true)
    (hrunning : s.isRunning = true) : s.CanGoOn := by
  have hfailed (stream : ProcessStream) : s.reader stream ≠ .failed := fun h => by
    have hstopped := hquiet stream h
    rw [AwaitedProcess.isQuiet, hrunning] at hstopped
    cases hstopped
  cases htodo : s.todo with
  | nil =>
    refine ⟨.exit, { s with exited := true }, rfl, trivial, ?_⟩
    exact if_pos ⟨hrunning, htodo, hterminates⟩
  | cons event rest =>
    obtain ⟨stream, c⟩ := event
    obtain ⟨t, hput⟩ | ⟨hopen, hbuffer⟩ := exists_put s stream c
    · refine ⟨.write, { t with todo := rest }, rfl, trivial, ?_⟩
      show s.writeStep = _
      rw [AwaitedProcess.writeStep, htodo]
      show (if s.isRunning = true then _ else none) = _
      rw [if_pos hrunning, hput]
      rfl
    · exact hi.canGoOn_of_open (hsubmitted stream) (hfailed stream) hopen hbuffer

/-- The process is over and a stream is still read: the others can write, or a stream can be read,
or they let go of it. -/
theorem canGoOn_of_not_running (hi : InAwait s) (hletGo : s.letGo = true)
    (hsubmitted : ∀ stream, s.reader stream ≠ .unsubmitted)
    (hquiet : ∀ stream, s.reader stream = .failed → s.isQuiet = true)
    (hrunning : s.isRunning = false) (hover : (s.reader stream).isOver = false) : s.CanGoOn := by
  cases hreader : s.reader stream with
  | unsubmitted => exact absurd hreader (hsubmitted stream)
  | ended | failed =>
    rw [hreader] at hover
    cases hover
  | reading text =>
    by_cases h : s.closed stream = false ∧ (s.pipe stream).buffer = []
    · obtain ⟨hopen, hbuffer⟩ := h
      cases hothers : s.othersTodo with
      | nil =>
        refine ⟨.close stream, { s with closed := Function.update s.closed stream true }, rfl,
          trivial, ?_⟩
        exact if_pos ⟨hopen, .inl hrunning, by rw [hothers]; rfl, hletGo⟩
      | cons event rest =>
        obtain ⟨stream', c⟩ := event
        obtain ⟨t, hput⟩ | ⟨hopen', hbuffer'⟩ := exists_put s stream' c
        · refine ⟨.othersWrite, { t with othersTodo := rest }, rfl, trivial, ?_⟩
          show s.othersWriteStep = _
          rw [AwaitedProcess.othersWriteStep, hothers]
          show (s.put stream' c).map _ = _
          rw [hput]
          rfl
        · refine hi.canGoOn_of_open (hsubmitted stream') (fun h => ?_) hopen' hbuffer'
          have hempty := hquiet stream' h
          rw [AwaitedProcess.isQuiet, hothers, List.isEmpty_cons, Bool.and_false] at hempty
          cases hempty
    · exact canGoOn_of_reading hreader fun hopen hbuffer => h ⟨hopen, hbuffer⟩

/-- The caller waits for a task: it can go on, or somebody else can. -/
theorem canGoOn_of_get (hi : InAwait s) (hletGo : s.letGo = true)
    (hpoint : s.point = .getError ∧ stream = .error ∨ s.point = .getResult ∧ stream = .output)
    (hquiet : ∀ stream, s.reader stream = .failed → s.isQuiet = true) : s.CanGoOn := by
  have hexited := hi.caller.awaited (hpoint.imp And.left And.left)
  have hrunning : s.isRunning = false := AwaitedProcess.isRunning_eq_false.mpr (.inl hexited)
  have hsubmitted (stream' : ProcessStream) : s.reader stream' ≠ .unsubmitted := by
    rw [Ne, hi.caller.unsubmitted]
    obtain ⟨h, -⟩ | ⟨h, -⟩ := hpoint <;> rw [h] <;> exact Bool.noConfusion
  cases hover : (s.reader stream).isOver with
  | false => exact hi.canGoOn_of_not_running hletGo hsubmitted hquiet hrunning hover
  | true =>
    refine canGoOn_of_caller ?_
    obtain ⟨h, rfl⟩ | ⟨h, rfl⟩ := hpoint
    all_goals
      rw [AwaitedProcess.callerStep, h]
      revert hover
      cases s.reader _ with
      | unsubmitted | reading => exact nofun
      | ended | failed => exact fun _ => rfl

/-- **Somebody can go on** until the call and its threads have ended. -/
theorem canGoOn (hi : InAwait s) (hterminates : s.terminates = true) (hletGo : s.letGo = true)
    (hquiet : ∀ stream, s.reader stream = .failed → s.isQuiet = true) (h : ¬ s.Finished) :
    s.CanGoOn := by
  have hsubmitted (hp : ∀ stream, s.point.precedes stream = false) (stream : ProcessStream) :
      s.reader stream ≠ .unsubmitted := by
    rw [Ne, hi.caller.unsubmitted, hp stream]
    exact Bool.noConfusion
  cases hpoint : s.point with
  | submitError | submitResult | destroy | shutdownNow =>
    refine canGoOn_of_caller ?_
    rw [AwaitedProcess.callerStep, hpoint]
    rfl
  | waitFor =>
    cases hrunning : s.isRunning with
    | true =>
      exact hi.canGoOn_of_running hterminates (hsubmitted fun _ => by rw [hpoint]; rfl) hquiet
        hrunning
    | false =>
      refine canGoOn_of_caller ?_
      rw [AwaitedProcess.callerStep, hpoint]
      show (if s.isRunning = true then none else _).isSome = true
      rw [hrunning]
      rfl
  | getError => exact hi.canGoOn_of_get hletGo (.inl ⟨hpoint, rfl⟩) hquiet
  | getResult => exact hi.canGoOn_of_get hletGo (.inr ⟨hpoint, rfl⟩) hquiet
  | done o =>
    have hdestroyed : s.destroyed = true := by
      rw [hi.caller.destroyed, hpoint]
      rfl
    obtain ⟨stream, hover⟩ : ∃ stream, (s.reader stream).isOver = false := by
      by_contra hall
      exact h ⟨⟨o, hpoint⟩, fun stream => Bool.eq_true_of_not_eq_false fun hover =>
        hall ⟨stream, hover⟩⟩
    exact hi.canGoOn_of_not_running hletGo (hsubmitted fun _ => by rw [hpoint]; rfl) hquiet
      (AwaitedProcess.isRunning_eq_false.mpr (.inr hdestroyed)) hover

end InAwait

/-! ### What is promised -/

/-- No step changes whether the process comes to its end, and whether its pipes are let go of. -/
theorem AwaitOutputStep.terminates_eq (h : AwaitOutputStep s a t) :
    t.terminates = s.terminates ∧ t.letGo = s.letGo := by
  cases h with
  | write htodo hrunning hput | othersWrite htodo hput => cases hput <;> exact ⟨rfl, rfl⟩
  | _ => exact ⟨rfl, rfl⟩

/-- When nobody writes any more it stays so. -/
theorem AwaitOutputStep.isQuiet (h : AwaitOutputStep s a t) (hs : s.isQuiet = true) :
    t.isQuiet = true := by
  have hrunning := (Bool.and_eq_true_iff.mp hs).1
  cases h with
  | write htodo hrunning' =>
    rw [hrunning'] at hrunning
    cases hrunning
  | othersWrite htodo =>
    rw [AwaitedProcess.isQuiet, htodo, List.isEmpty_cons, Bool.and_false] at hs
    cases hs
  | exit hrunning' =>
    rw [hrunning'] at hrunning
    cases hrunning
  | destroy =>
    refine Bool.and_eq_true_iff.mpr ⟨?_, (Bool.and_eq_true_iff.mp hs).2⟩
    show (!(!s.exited && !true)) = true
    rw [Bool.not_true, Bool.and_false]
    rfl
  | _ => exact hs

/-- A read that fails without leaving anybody behind keeps it so that none has. -/
theorem AwaitOutputStep.failsQuietly (h : AwaitOutputStep s a t) (ha : a.FailsQuietly s)
    (hs : ∀ stream, s.reader stream = .failed → s.isQuiet = true) :
    ∀ stream, t.reader stream = .failed → t.isQuiet = true := by
  intro stream hfailed
  refine h.isQuiet ?_
  have hset (stream' : ProcessStream) {r : StreamReader} (hr : r ≠ .failed)
      (hfailed : (s.setReader stream' r).reader stream = .failed) : s.isQuiet = true := by
    replace hfailed : Function.update s.reader stream' r stream = .failed := hfailed
    by_cases h : stream = stream'
    · rw [h, Function.update_self] at hfailed
      exact absurd hfailed hr
    · rw [Function.update_of_ne h] at hfailed
      exact hs stream hfailed
  cases h with
  | readFails => exact ha
  | write htodo hrunning hput | othersWrite htodo hput => cases hput <;> exact hs stream hfailed
  | @read stream' | @endRead stream' => exact hset stream' StreamReader.noConfusion hfailed
  | submitError => exact hset .error StreamReader.noConfusion hfailed
  | submitResult => exact hset .output StreamReader.noConfusion hfailed
  | _ => exact hs stream hfailed

/-- **The output is all of it, and nobody waits for ever.** A call that is not interrupted returns
all that is written to the output of the process, or throws all that is written to its error output
as soon as anything is, if no read fails; and all that the process writes is among it. The process
is destroyed in any case. However much is written, and however small the pipes are, the call and its
threads come to their end if the process does and its pipes are let go of. -/
theorem awaitsOutput_of_reachable (h : awaitMachine.Reachable s) : AwaitsOutput s := by
  have hi := inAwait_of_reachable h
  refine ⟨fun o hpoint hinterrupted => ?_, fun hexited stream => ?_,
    fun o hpoint hinterrupted => ?_, fun o hpoint => ?_, fun hterminates hletGo hquiet => ?_⟩
  · have ho : s.point.outcome = some o := by rw [hpoint]; rfl
    exact ⟨(hi.caller.outcome o ho hinterrupted).1, hi.eq_of ho hinterrupted⟩
  · obtain ⟨own, hprogram, hown⟩ := hi.streams.own
    rw [hi.streams.exited hexited, List.append_nil] at hprogram
    rw [hprogram]
    exact hown stream
  · have houtcome := hi.caller.interrupted hinterrupted
    rw [hpoint] at houtcome
    exact Option.some.inj houtcome
  · rw [hi.caller.destroyed, hpoint]
    rfl
  · have hcloser (t : AwaitedProcess) (a : AwaitOutputAction) (u : AwaitedProcess)
        (ht : InAwait t ∧ t.terminates = true ∧ t.letGo = true ∧
          ∀ stream, t.reader stream = .failed → t.isQuiet = true)
        (hP : a.FailsQuietly t) (hst : awaitMachine.step t a = some u) :
        (InAwait u ∧ u.terminates = true ∧ u.letGo = true ∧
          ∀ stream, u.reader stream = .failed → u.isQuiet = true) ∧ u.distance < t.distance := by
      have hstep := awaitOutputStep_of_step hst
      obtain ⟨hterminates', hletGo'⟩ := hstep.terminates_eq
      exact ⟨⟨ht.1.step hstep, hterminates'.trans ht.2.1, hletGo'.trans ht.2.2.1,
        hstep.failsQuietly hP ht.2.2.2⟩, hstep.distance_lt ht.1⟩
    refine Machine.inevitableFor_of_measure
      (I := fun t => InAwait t ∧ t.terminates = true ∧ t.letGo = true ∧
        ∀ stream, t.reader stream = .failed → t.isQuiet = true)
      AwaitedProcess.distance
      (fun t ht hnot => ht.1.canGoOn ht.2.1 ht.2.2.1 ht.2.2.2 hnot)
      (fun t a u ht hP _ hst => (hcloser t a u ht hP hst).imp_right Nat.le_of_lt)
      (fun t a u ht _ hP _ hst => hcloser t a u ht hP hst) ⟨hi, hterminates, hletGo, hquiet⟩

end Progress

/-- A process that writes more than its pipe holds, while one that it has started writes to the same
pipe, also when the process is over. All is read to the end. -/
def awaitThreeCharacters : List AwaitOutputAction :=
  [.write, .caller, .caller, .read .output, .write, .read .output, .exit, .othersWrite,
    .read .output, .close .output, .close .error, .read .output, .read .error, .caller, .caller,
    .caller, .caller, .caller]

theorem awaitsOutput_of_reachable_three : ∃ s,
    (awaitMachine.Reachable s ∧ s.point = .done (.returned ['o', 'k'])) ∧ AwaitsOutput s := by
  obtain ⟨s, hrun, hs⟩ := awaitMachine.exists_run_of_exec
    (.start [(.output, 'o'), (.output, 'k')] [(.output, '\n')] true true
      fun _ => Pipe.empty 1 Nat.one_pos)
    awaitThreeCharacters (fun t => decide (t.point = .done (.returned ['o', 'k']))) (by decide)
  have hreachable : awaitMachine.Reachable s :=
    ⟨_, ⟨_, _, _, _, _, fun _ => rfl, rfl⟩, hrun⟩
  exact ⟨s, ⟨hreachable, of_decide_eq_true hs⟩, awaitsOutput_of_reachable hreachable⟩

end Shabdiz
