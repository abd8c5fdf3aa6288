import CodeSpace.Data.Utf8
import CodeSpace.Store.ProcessRecords
import CodeSpace.Transition.Run

namespace CodeSpace.Runner

open Data Domain Transition
open Store (ProcessTermination)

/-! One process of a runner, from its spawn on (`spawn_pipe` and `spawn_pty` of
`crates/runner/src/process.rs`): its root, the pumps of its output, its reaper, its timeout and the
requests to terminate and to read it. Each step is what one task does between two points where another
one can run: a critical section, or an await that is over. -/

inductive KillIntent
  | timeout
  | terminated
deriving DecidableEq, Repr

/-- How the root ended, as its parent waits for it. -/
inductive ExitStatus
  | code (value : Int)
  | signal (number : Int)
deriving DecidableEq, Repr

def ExitStatus.code? : ExitStatus → Option Int
  | .code value => some value
  | .signal _ => none

def ExitStatus.signal? : ExitStatus → Option Int
  | .code _ => none
  | .signal number => some number

structure LifecycleSnapshot where
  running : Bool := true
  exitCode : Option Int := none
  termination : Option ProcessTermination := none
  signal : Option Int := none
deriving DecidableEq, Repr

structure Lifecycle where
  finished : Bool := false
  exited : Bool := false
  killIntent : Option KillIntent := none
  snapshot : LifecycleSnapshot := {}
deriving DecidableEq, Repr

namespace Lifecycle

def noteKill (life : Lifecycle) (intent : KillIntent) : Lifecycle :=
  if life.killIntent.isNone then { life with killIntent := some intent } else life

/-- What `finish_wait` records of a root that ended so. -/
def ending (intent : Option KillIntent) (code signal : Option Int) : LifecycleSnapshot :=
  match intent with
  | some .timeout => { running := false, termination := some .timeout }
  | some .terminated => { running := false, termination := some .terminated }
  | none =>
      if signal.isSome then { running := false, termination := some .signaled, signal := signal }
      else { running := false, exitCode := code, termination := some .exited }

def finishWait (life : Lifecycle) (code signal : Option Int) : Lifecycle :=
  if life.finished then life
  else { life with finished := true, snapshot := ending life.killIntent code signal }

def finishLost (life : Lifecycle) : Lifecycle :=
  if life.finished then life
  else
    let termination : ProcessTermination :=
      match life.killIntent with
      | some .timeout => .timeout
      | some .terminated => .terminated
      | none => .unknown
    { life with
      finished := true
      snapshot := { running := false, termination := some termination } }

end Lifecycle

structure OutputBuf where
  dropped : Nat := 0
  total : Nat := 0
  bytes : List UInt8 := []
  eof : Bool := false
  timedOut : Bool := false
deriving DecidableEq, Repr

structure RunnerReadResult where
  processId : String
  cursor : Nat
  chunk : String
  eof : Bool
  outputLost : Bool
  retainedFrom : Nat
deriving DecidableEq, Repr

namespace OutputBuf

/-- What `pump_chunks` and `pump_reader` do with a chunk. -/
def append (cap : Nat) (buf : OutputBuf) (chunk : List UInt8) : OutputBuf :=
  let grown := { buf with total := buf.total + chunk.length, bytes := buf.bytes ++ chunk }
  if cap < grown.bytes.length then
    let extra := grown.bytes.length - cap
    { grown with bytes := grown.bytes.drop extra, dropped := grown.dropped + extra }
  else grown

/-- The bytes that a read at this cursor returns, before they are made a text. -/
def slice (buf : OutputBuf) (cursor : Nat) : List UInt8 :=
  let start := max cursor buf.dropped
  let skip := start - buf.dropped
  if buf.bytes.length ≤ skip then [] else buf.bytes.drop skip

/-- `read_host_process` of a process that is held. -/
def read (buf : OutputBuf) (processId : String) (cursor : Nat) : Except ErrorBody RunnerReadResult :=
  if buf.timedOut ∧ buf.total ≤ cursor then
    .error { code := .timeout, message := "managed process exceeded time limit" }
  else
    let start := max cursor buf.dropped
    let chunk := buf.slice cursor
    let next := start + chunk.length
    .ok
      { processId := processId
        cursor := next
        chunk := String.ofList (Utf8.decodeLossy chunk)
        eof := buf.eof && decide (buf.total ≤ next)
        outputLost := decide (0 < buf.dropped)
        retainedFrom := buf.dropped }

end OutputBuf

/-- The root as the kernel has it. -/
inductive Root
  | running
  | exited (status : ExitStatus)
  | reaped (status : ExitStatus)
deriving DecidableEq, Repr

inductive SessionIo
  | pipe
  /-- A PTY, with an exit observer or not. -/
  | pty (observed : Bool)
deriving DecidableEq, Repr

/-- The task that ends the process at its deadline. -/
inductive TimerStage
  | sleeping
  /-- A PTY's intent is noted and the kill comes next. -/
  | killing
  /-- The kill was sent and the output is marked next. -/
  | marking
  | finished
deriving DecidableEq, Repr

/-- The task that waits for the root and then for its output. -/
inductive WaiterStage
  | watching
  /-- The root was seen to have exited, and its observer runs. -/
  | observing
  /-- The end is recorded, and the pumps are joined. -/
  | joining
  | finished
deriving DecidableEq, Repr

inductive Pump
  | stdout
  | stderr
deriving DecidableEq, Repr

structure HostProcess where
  processId : String
  io : SessionIo
  cap : Nat
  root : Root := .running
  /-- The exit code that the PTY's own waiter reported. -/
  reported : Option Int := none
  lifecycle : Lifecycle := {}
  output : OutputBuf := {}
  pumps : List Pump
  timer : TimerStage := .sleeping
  waiter : WaiterStage := .watching
deriving DecidableEq, Repr

inductive HostEvent
  /-- The root ends, by itself or through a signal. -/
  | exits (status : ExitStatus)
  | appends (pump : Pump) (chunk : List UInt8)
  | pumpEnds (pump : Pump)
  | terminates
  | timer
  | waiter
  /-- The task of a PTY's exit window marks the root as exited. -/
  | marks
  /-- The PTY's own waiter reaps the root. -/
  | reaps
  /-- It reports the exit, with the code that the PTY makes of the root's status. -/
  | reports (code : Int)
  /-- It went away without a report; or the wait of a pipe's reaper fails. -/
  | loses
  | reads (reader cursor : Nat)
deriving DecidableEq, Repr

inductive HostNotice
  | quiet
  | killed (intent : KillIntent)
  | reaped
  | answered (bytes : List UInt8) (answer : Except ErrorBody RunnerReadResult)
deriving DecidableEq

structure HostLabel where
  event : HostEvent
  notice : HostNotice
deriving DecidableEq

namespace HostProcess

/-- A process that was just created. The output of a PTY is pumped as one stream. -/
def spawned (processId : String) (io : SessionIo) (outputBytesCap : Nat) : HostProcess where
  processId := processId
  io := io
  cap := max outputBytesCap 1
  pumps := match io with
    | .pipe => [.stdout, .stderr]
    | .pty _ => [.stdout]

/-- `exited_unreaped`: a root that was reaped has no id any more. -/
def exitedUnreaped (process : HostProcess) : Bool :=
  match process.root with
  | .running => false
  | .exited _ | .reaped _ => true

/-- A kill does nothing to a root that ended. -/
def isOver (process : HostProcess) : Bool :=
  match process.io with
  | .pipe => process.lifecycle.finished || process.exitedUnreaped
  | .pty _ => process.lifecycle.finished || process.lifecycle.exited || process.reported.isSome

def noteKill (process : HostProcess) (intent : KillIntent) : HostProcess :=
  { process with lifecycle := process.lifecycle.noteKill intent }

def requestKill (process : HostProcess) : HostNotice × HostProcess :=
  if process.isOver then (.quiet, process) else (.killed .terminated, process.noteKill .terminated)

def stepTimer (process : HostProcess) : Option (HostNotice × HostProcess) :=
  match process.timer with
  | .sleeping =>
      if process.isOver then some (.quiet, { process with timer := .finished })
      else
        match process.io with
        | .pipe => some (.killed .timeout, { process.noteKill .timeout with timer := .marking })
        | .pty _ => some (.quiet, { process.noteKill .timeout with timer := .killing })
  | .killing => some (.killed .timeout, { process with timer := .marking })
  | .marking =>
      some (.quiet,
        { process with output := { process.output with timedOut := true }, timer := .finished })
  | .finished => none

/-- The next step of the task that waits: `reap_child` for a pipe, the exit's report for a PTY, then
the end of the output. -/
def stepWaiter (process : HostProcess) : Option (HostNotice × HostProcess) :=
  match process.waiter with
  | .watching =>
      match process.io with
      | .pipe =>
          if process.lifecycle.finished then some (.quiet, { process with waiter := .joining })
          else if process.exitedUnreaped then some (.quiet, { process with waiter := .observing })
          else some (.quiet, process)
      | .pty _ =>
          process.reported.map fun code => (.quiet,
            { process with
              lifecycle := process.lifecycle.finishWait (some code) none
              waiter := .joining })
  | .observing =>
      match process.root with
      | .running => some (.quiet, { process with waiter := .watching })
      | .exited status | .reaped status =>
          some (.reaped,
            { process with
              root := .reaped status
              lifecycle := process.lifecycle.finishWait status.code? status.signal?
              waiter := .joining })
  | .joining =>
      if process.pumps.isEmpty then
        some (.quiet, { process with output := { process.output with eof := true }, waiter := .finished })
      else none
  | .finished => none

def step (process : HostProcess) : HostEvent → Option (HostNotice × HostProcess)
  | .exits status =>
      match process.root with
      | .running => some (.quiet, { process with root := .exited status })
      | _ => none
  | .appends pump chunk =>
      if pump ∈ process.pumps then
        some (.quiet, { process with output := process.output.append process.cap chunk })
      else none
  | .pumpEnds pump =>
      if pump ∈ process.pumps then
        some (.quiet, { process with pumps := process.pumps.filter (· ≠ pump) })
      else none
  | .terminates => some process.requestKill
  | .timer => process.stepTimer
  | .waiter => process.stepWaiter
  | .marks =>
      match process.io, process.root with
      | .pty true, .exited _ | .pty true, .reaped _ =>
          some (.quiet, { process with lifecycle := { process.lifecycle with exited := true } })
      | _, _ => none
  | .reaps =>
      match process.io, process.root with
      | .pty _, .exited status => some (.reaped, { process with root := .reaped status })
      | _, _ => none
  | .reports code =>
      match process.io, process.root with
      | .pty _, .reaped _ => some (.quiet, { process with reported := some code })
      | _, _ => none
  | .loses =>
      match process.io, process.waiter with
      | .pty _, .watching | .pipe, .observing =>
          some (.quiet, { process with lifecycle := process.lifecycle.finishLost, waiter := .joining })
      | _, _ => none
  | .reads _ cursor =>
      some (.answered (process.output.slice cursor)
        (process.output.read process.processId cursor), process)

end HostProcess

inductive TimerStep (process : HostProcess) : HostNotice → HostProcess → Prop
  | late (sleeping : process.timer = .sleeping) (isOver : process.isOver = true) :
      TimerStep process .quiet { process with timer := .finished }
  | kills (sleeping : process.timer = .sleeping) (live : process.isOver = false)
      (piped : process.io = .pipe) :
      TimerStep process (.killed .timeout) { process.noteKill .timeout with timer := .marking }
  | notes {observed : Bool} (sleeping : process.timer = .sleeping)
      (live : process.isOver = false) (isPty : process.io = .pty observed) :
      TimerStep process .quiet { process.noteKill .timeout with timer := .killing }
  | killsNoted (killing : process.timer = .killing) :
      TimerStep process (.killed .timeout) { process with timer := .marking }
  | marks (marking : process.timer = .marking) :
      TimerStep process .quiet
        { process with output := { process.output with timedOut := true }, timer := .finished }

inductive WaiterStep (process : HostProcess) : HostNotice → HostProcess → Prop
  | finished (watching : process.waiter = .watching) (piped : process.io = .pipe)
      (isFinished : process.lifecycle.finished = true) :
      WaiterStep process .quiet { process with waiter := .joining }
  | sees (watching : process.waiter = .watching) (piped : process.io = .pipe)
      (unfinished : process.lifecycle.finished = false) (exited : process.exitedUnreaped = true) :
      WaiterStep process .quiet { process with waiter := .observing }
  | waits (watching : process.waiter = .watching) (piped : process.io = .pipe) :
      WaiterStep process .quiet process
  | reported {observed : Bool} {code : Int} (watching : process.waiter = .watching)
      (isPty : process.io = .pty observed) :
      WaiterStep process .quiet
        { process with
          lifecycle := process.lifecycle.finishWait (some code) none
          waiter := .joining }
  | unseen (observing : process.waiter = .observing) (running : process.root = .running) :
      WaiterStep process .quiet { process with waiter := .watching }
  | reaps {status : ExitStatus} (observing : process.waiter = .observing)
      (ended : process.root = .exited status ∨ process.root = .reaped status) :
      WaiterStep process .reaped
        { process with
          root := .reaped status
          lifecycle := process.lifecycle.finishWait status.code? status.signal?
          waiter := .joining }
  | ends (joining : process.waiter = .joining) (joined : process.pumps = []) :
      WaiterStep process .quiet
        { process with output := { process.output with eof := true }, waiter := .finished }

section Steps

variable {process after : HostProcess} {notice : HostNotice}

theorem TimerStep.of_eq (stepped : process.stepTimer = some (notice, after)) :
    TimerStep process notice after := by
  unfold HostProcess.stepTimer at stepped
  split at stepped
  next sleeping =>
    split at stepped
    next isOver =>
      cases stepped
      exact .late sleeping isOver
    next live =>
      have live := eq_false_of_ne_true live
      split at stepped
      next piped =>
        cases stepped
        exact .kills sleeping live piped
      next isPty =>
        cases stepped
        exact .notes sleeping live isPty
  next killing =>
    cases stepped
    exact .killsNoted killing
  next marking =>
    cases stepped
    exact .marks marking
  · cases stepped

theorem WaiterStep.of_eq (stepped : process.stepWaiter = some (notice, after)) :
    WaiterStep process notice after := by
  unfold HostProcess.stepWaiter at stepped
  split at stepped
  next watching =>
    split at stepped
    next piped =>
      split at stepped
      next isFinished =>
        cases stepped
        exact .finished watching piped isFinished
      next unfinished =>
        split at stepped
        next exited =>
          cases stepped
          exact .sees watching piped (eq_false_of_ne_true unfinished) exited
        · cases stepped
          exact .waits watching piped
    next isPty =>
      obtain ⟨_, _, same⟩ := Option.map_eq_some_iff.mp stepped
      cases same
      exact .reported watching isPty
  next observing =>
    split at stepped
    next running =>
      cases stepped
      exact .unseen observing running
    next ended =>
      cases stepped
      exact .reaps observing (.inl ended)
    next ended =>
      cases stepped
      exact .reaps observing (.inr ended)
  next joining =>
    obtain ⟨joined, same⟩ := Option.ite_none_right_eq_some.mp stepped
    cases same
    exact .ends joining (List.isEmpty_iff.mp joined)
  · cases stepped

end Steps

def hostSystem : System HostProcess HostLabel where
  initial process := ∃ processId io cap, process = .spawned processId io cap
  step before label after := before.step label.event = some (label.notice, after)

namespace HostProcess

/-- A list of events that are all possible and admitted gives a run, with what can be checked of it. -/
theorem exists_admitted_run (admitted : HostProcess → HostLabel → Prop)
    [∀ process label, Decidable (admitted process label)] (process : HostProcess)
    (events : List HostEvent) (holds : List HostLabel → HostProcess → Prop)
    [∀ trace host, Decidable (holds trace host)]
    (checked : (replay (admittedStep HostProcess.step HostLabel.mk admitted) HostLabel.mk process
      events).any (fun run => decide (holds run.1 run.2)) = true) :
    ∃ trace host, (hostSystem.restrict admitted).Run process trace host ∧ holds trace host :=
  System.exists_admitted_run (fun stepped => stepped) admitted process events holds checked

theorem exists_run (process : HostProcess) (events : List HostEvent)
    (holds : List HostLabel → HostProcess → Prop) [∀ trace host, Decidable (holds trace host)]
    (checked : (replay (admittedStep HostProcess.step HostLabel.mk fun _ _ => True) HostLabel.mk process
      events).any (fun run => decide (holds run.1 run.2)) = true) :
    ∃ trace host, hostSystem.Run process trace host ∧ holds trace host := by
  obtain ⟨trace, host, run, held⟩ := exists_admitted_run _ process events holds checked
  exact ⟨trace, host, run.of_restrict, held⟩

end HostProcess

end CodeSpace.Runner
