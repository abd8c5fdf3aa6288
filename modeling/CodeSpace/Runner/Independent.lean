import CodeSpace.Runner.Processes
import CodeSpace.Runner.Wire
import CodeSpace.Transition.Run

namespace CodeSpace.Runner

open Data Domain Transition

/-! An independent Runner and its connections (`Shared`, `read_ahead` and `connection` in
`crates/runner/src/wire.rs`). Each step is what one task does between two points where another task
can run: a locked section, a frame read, an answer written. Clients may send anything. -/

inductive Ending
  | detach
  | lost
  | stop
deriving DecidableEq, Repr

inductive Phase
  | reading
  | claiming (storeId : String)
  | answering (job : Nat)
  | replying
  | leaving (ending : Ending)
  | draining (ending : Ending)
  | closed
deriving DecidableEq, Repr

def readAhead : Nat := 8

structure Connection where
  uid : Except String Nat
  frames : List Frame := []
  streaming : Bool := true
  ended : Bool := false
  phase : Phase := .reading

/-- How far a request to start a process is. -/
inductive Stage
  | started
  | failed
  | reserved
  | spawned
  | filled
deriving DecidableEq, Repr

/-- An admitted request that has not been answered. `epoch` is the controller's when it was
admitted, `sent` the one it carried. -/
structure Job where
  connection : Nat
  sent : Option Nat
  epoch : Nat
  op : RunnerOp
  beside : Bool
  stage : Stage := .started
deriving DecidableEq, Repr

/-- What a request does on a task that its connection does not wait for: a Stop ends the processes
once `run` has joined the connections; a process that was created is killed at its deadline; a Launch
that was answered before its helper was ready follows the helper (`Settler`); and the hook of a
governed process that was killed for a request (`after_kill`). -/
inductive Errand
  | stop (job : Job)
  | deadline (job : Job) (processId : String)
  | settlement (job : Job) (processId : String)
  | killHook (job : Job) (processId : String)
deriving DecidableEq, Repr

def Errand.job : Errand → Job
  | .stop job | .deadline job _ | .settlement job _ | .killHook job _ => job

/-- A connection's number is its place in the order of acceptance. -/
structure IndependentRunner where
  ownerUid : Nat
  claimWait : String
  limit : Nat
  control : Control := {}
  stopping : Bool := false
  serving : Bool := true
  connections : List Connection := []
  jobs : Assoc Nat Job := ∅
  nextJob : Nat := 0
  errands : List Errand := []
  processes : Processes := {}

inductive Act
  | kills (processId : String)
  | endsScope (processId : String)
  | abandons (processId : String)
  | answersStop
deriving DecidableEq, Repr

/-- What a step shows outside of the Runner's own state. -/
inductive Notice
  | quiet
  | claimed (connection : Nat) (storeId : String) (claim : RunnerClaim)
  | claimRefused (connection : Nat) (refusal : ClaimRefusal) (message : String)
  | admitted (connection : Nat) (sent : Option Nat) (epoch : Nat) (op : RunnerOp)
  | refused (connection : Nat) (op : RunnerOp) (error : ErrorBody)
  | created (processId : String)
  | filled (processId : String)
  | recalled (connection epoch : Nat) (answers : List (String × Recalled))
  | acts (job : Job) (act : Act)
deriving DecidableEq

inductive RunnerEvent
  | accepts (uid : Except String Nat)
  | readsAhead (connection : Nat) (frame : Frame)
  | streamEnds (connection : Nat)
  | stopRequested
  | seesStop (connection : Nat)
  | receives (connection : Nat)
  | pollsClaim (connection : Nat) (expired : Bool)
  | replies (connection : Nat) (written : Bool)
  | reserves (job : Nat)
  | spawns (job : Nat) (created : Bool)
  | fills (job : Nat)
  | detaches (job : Nat)
  | kills (job : Nat) (processId : String)
  | answers (job : Nat)
  | drains (connection : Nat)
  | releases (connection : Nat)
  | stopsServing
  | errandKills (errand : Errand) (processId : String)
  | finishesErrand (errand : Errand)
  | finishes (processId : String)
  | evicts (processIds : List String)

namespace IndependentRunner

/-- `IndependentRunner::new`, with `DEFAULT_MAX_UNACKNOWLEDGED`. -/
def new (ownerUid : Nat) (claimWait : String) (limit : Nat) : IndependentRunner where
  ownerUid := ownerUid
  claimWait := claimWait
  limit := limit
  processes := Processes.keepUntilAcknowledged {} 64

def setConnection (runner : IndependentRunner) (id : Nat) (connection : Connection) :
    IndependentRunner :=
  { runner with connections := runner.connections.set id connection }

def setPhase (runner : IndependentRunner) (id : Nat) (phase : Phase) : IndependentRunner :=
  match runner.connections[id]? with
  | some connection => runner.setConnection id { connection with phase := phase }
  | none => runner

def hasEnded (runner : IndependentRunner) (id : Nat) : Bool :=
  (runner.connections[id]?).any Connection.ended

def controllerEpoch (runner : IndependentRunner) : Nat :=
  (runner.control.controller.map Controller.epoch).getD 0

def noteReceived (runner : IndependentRunner) (op : RunnerOp) : IndependentRunner :=
  match startedProcess op with
  | some processId => { runner with processes := runner.processes.noteReceived processId }
  | none => runner

def accept (runner : IndependentRunner) (uid : Except String Nat) : Option IndependentRunner :=
  if runner.serving then some { runner with connections := runner.connections ++ [{ uid := uid }] }
  else none

/-- The loop of `run` sees the stop. -/
def stopServing (runner : IndependentRunner) : Option IndependentRunner :=
  if runner.stopping then some { runner with serving := false } else none

/-- `run` has joined every connection. -/
def allClosed (runner : IndependentRunner) : Bool :=
  !runner.serving && runner.connections.all (·.phase = .closed)

/-- `read_ahead` hands a frame to the connection's task. -/
def readFrame (runner : IndependentRunner) (id : Nat) (frame : Frame) : Option IndependentRunner :=
  match runner.connections[id]? with
  | some connection =>
      if connection.streaming ∧ connection.frames.length < readAhead then
        some (runner.setConnection id { connection with frames := connection.frames ++ [frame] })
      else none
  | none => none

def endStream (runner : IndependentRunner) (id : Nat) : Option IndependentRunner :=
  match runner.connections[id]? with
  | some connection =>
      if connection.streaming then
        some (runner.setConnection id { connection with streaming := false, ended := true })
      else none
  | none => none

def seeStop (runner : IndependentRunner) (id : Nat) : Option IndependentRunner :=
  match runner.connections[id]? with
  | some connection =>
      if runner.stopping ∧ connection.phase = .reading then some (runner.setPhase id (.leaving .stop))
      else none
  | none => none

/-- A Claim up to its wait. -/
def claim (runner : IndependentRunner) (id : Nat) (uid : Except String Nat) (storeId : String) :
    Notice × IndependentRunner :=
  match checkClaim runner.stopping runner.ownerUid uid storeId with
  | .error (refusal, message) => (.claimRefused id refusal message, runner.setPhase id .replying)
  | .ok () =>
      match runner.control.beginClaim runner.hasEnded id storeId with
      | .error (refusal, message) => (.claimRefused id refusal message, runner.setPhase id .replying)
      | .ok control => (.quiet, { runner with control := control }.setPhase id (.claiming storeId))

def newJob (runner : IndependentRunner) (id : Nat) (sent : Option Nat) (op : RunnerOp) : Job :=
  { connection := id, sent, epoch := runner.controllerEpoch, op, beside := answeredBeside op }

/-- A request that needs the controller. A refused request to start a process is noted. -/
def request (runner : IndependentRunner) (id : Nat) (sent : Option Nat) (op : RunnerOp) :
    Notice × IndependentRunner :=
  match runner.control.admitRequest id sent op with
  | .error error => (.refused id op error, (runner.noteReceived op).setPhase id .replying)
  | .ok control =>
      let admitted : IndependentRunner :=
        { runner with
          control := control
          jobs := runner.jobs.insert runner.nextJob (runner.newJob id sent op)
          nextJob := runner.nextJob + 1 }
      (.admitted id sent runner.controllerEpoch op,
        if answeredBeside op then admitted else admitted.setPhase id (.answering runner.nextJob))

/-- One turn of the connection's loop, up to its first wait. -/
def handle (runner : IndependentRunner) (id : Nat) (uid : Except String Nat) :
    Frame → Notice × IndependentRunner
  | .unusable => (.quiet, runner.setPhase id (.leaving .lost))
  | .request sent op =>
      match op with
      | some .detach => (.quiet, runner.setPhase id (.leaving .detach))
      | some .stop =>
          match runner.control.admitRequest id sent .stop with
          | .ok _ =>
              (.admitted id sent runner.controllerEpoch .stop,
                { runner with
                  stopping := true
                  errands := runner.errands ++ [Errand.stop (runner.newJob id sent .stop)]
                }.setPhase id (.leaving .stop))
          | .error error => (.refused id .stop error, runner.setPhase id .replying)
      | some (.claim storeId) => runner.claim id uid storeId
      | some .hello | some (.replay _) | none => (.quiet, runner.setPhase id .replying)
      | some op => runner.request id sent op

def receive (runner : IndependentRunner) (id : Nat) : Option (Notice × IndependentRunner) :=
  match runner.connections[id]? with
  | some connection =>
      if connection.phase = .reading then
        match connection.frames with
        | [] => if connection.streaming then none else some (.quiet, runner.setPhase id (.leaving .lost))
        | frame :: rest =>
            some ((runner.setConnection id { connection with frames := rest }).handle id
              connection.uid frame)
      else none
  | none => none

def pollClaim (runner : IndependentRunner) (id : Nat) (expired : Bool) :
    Option (Notice × IndependentRunner) :=
  match runner.connections[id]? with
  | some connection =>
      match connection.phase with
      | .claiming storeId =>
          let polled := runner.control.pollClaim runner.stopping connection.ended expired
            runner.claimWait id storeId
          let next := { runner with control := polled.2 }
          match polled.1 with
          | .claimed claim => some (.claimed id storeId claim, next.setPhase id .replying)
          | .refused refusal message =>
              some (.claimRefused id refusal message, next.setPhase id .replying)
          | .waits => some (.quiet, next)
      | _ => none
  | none => none

def reply (runner : IndependentRunner) (id : Nat) (written : Bool) : Option IndependentRunner :=
  match runner.connections[id]? with
  | some connection =>
      if connection.phase = .replying then
        some (runner.setPhase id (if written then .reading else .leaving .lost))
      else none
  | none => none

def setStage (runner : IndependentRunner) (id : Nat) (job : Job) (stage : Stage) :
    IndependentRunner :=
  { runner with jobs := runner.jobs.insert id { job with stage := stage } }

def reserve (runner : IndependentRunner) (id : Nat) : Option IndependentRunner :=
  match runner.jobs.lookup id with
  | some job =>
      match startedProcess job.op with
      | some processId =>
          if job.stage = .started then
            match runner.processes.reserveSlot runner.limit processId with
            | .ok processes => some ({ runner with processes := processes }.setStage id job .reserved)
            | .error _ => some (runner.setStage id job .failed)
          else none
      | none => none
  | none => none

/-- The process that a request may create: a preparation starts nothing. -/
def spawnedProcess : RunnerOp → Option (String × String)
  | .exec workspaceId processId | .launch workspaceId processId => some (workspaceId, processId)
  | _ => none

/-- Only a governed process has hooks. -/
def governed : RunnerOp → Bool
  | .launch _ _ => true
  | _ => false

def spawn (runner : IndependentRunner) (id : Nat) (created : Bool) :
    Option (Notice × IndependentRunner) :=
  match runner.jobs.lookup id with
  | some job =>
      match spawnedProcess job.op with
      | some (_, processId) =>
          if job.stage = .reserved then
            if created then some (.created processId, runner.setStage id job .spawned)
            else
              some (.quiet, { runner with processes := runner.processes.freeSlot processId }.setStage
                id job .failed)
          else none
      | none => none
  | none => none

def fill (runner : IndependentRunner) (id : Nat) : Option (Notice × IndependentRunner) :=
  match runner.jobs.lookup id with
  | some job =>
      match spawnedProcess job.op with
      | some (workspaceId, processId) =>
          if job.stage = .spawned then
            some (.filled processId,
              { runner with
                processes := runner.processes.fill workspaceId processId (governed job.op)
                errands := runner.errands ++ [Errand.deadline job processId] }.setStage id job .filled)
          else none
      | none => none
  | none => none

/-- The helper of a Launch was not ready in time, or its transcript says nothing certain: a task
follows the helper from here on, and the Launch is answered. -/
def detach (runner : IndependentRunner) (id : Nat) : Option IndependentRunner :=
  match runner.jobs.lookup id with
  | some job =>
      match job.op with
      | .launch _ processId =>
          if job.stage = .filled then
            some { runner with errands := runner.errands ++ [.settlement job processId] }
          else none
      | _ => none
  | none => none

/-- A `request_kill` that reached its process. One that had exited, or could not be killed, is left. -/
def requestKill (runner : IndependentRunner) (job : Job) (processId : String) :
    Option (Notice × IndependentRunner) :=
  match runner.processes.slots.lookup processId with
  | some slot =>
      if slot.ended then none
      else some (.acts job (.kills processId),
        if slot.onKill then { runner with errands := runner.errands ++ [.killHook job processId] }
        else runner)
  | none => none

/-- Whether `kill_host` or `kill_host_workspace` of the request comes to the process. -/
def terminates : RunnerOp → String → Slot → Bool
  | .terminate processId, other, _ => other = processId
  | .terminateWorkspace workspaceId, _, slot => slot.workspaceId = workspaceId
  | _, _, _ => false

def kill (runner : IndependentRunner) (id : Nat) (processId : String) :
    Option (Notice × IndependentRunner) :=
  match runner.jobs.lookup id with
  | some job =>
      if (runner.processes.slots.lookup processId).any (terminates job.op processId) then
        runner.requestKill job processId
      else none
  | none => none

/-- What a request that is answered does last: its own effect on the Runner's records, the drop of
a reservation it did not fill, and the note that it reached the Runner. -/
def settle (runner : IndependentRunner) (job : Job) : Notice × IndependentRunner :=
  match job.op with
  | .recall processIds =>
      (.recalled job.connection job.epoch
        (processIds.map fun processId => (processId, runner.processes.recall processId)), runner)
  | .reconciled workspaceIds =>
      (.quiet, { runner with control := runner.control.reconciled job.connection workspaceIds })
  | .acknowledge processIds =>
      (.quiet, { runner with processes := runner.processes.acknowledge processIds })
  | op =>
      match startedProcess op with
      | some processId =>
          let freed := if job.stage = .reserved then runner.processes.freeSlot processId
            else runner.processes
          (.quiet, { runner with processes := freed.noteReceived processId })
      | none => (.quiet, runner)

/-- A process that was created is handed over before its request is answered. -/
def answer (runner : IndependentRunner) (id : Nat) : Option (Notice × IndependentRunner) :=
  match runner.jobs.lookup id with
  | some job =>
      if job.stage = .spawned then none
      else
        let settled := runner.settle job
        let next := { settled.2 with jobs := settled.2.jobs.erase id }
        some (settled.1, if job.beside then next else next.setPhase job.connection .replying)
  | none => none

/-- The loop was left: the reader is aborted and `ended` set. -/
def drain (runner : IndependentRunner) (id : Nat) : Option IndependentRunner :=
  match runner.connections[id]? with
  | some connection =>
      match connection.phase with
      | .leaving ending =>
          some (runner.setConnection id
            { connection with streaming := false, ended := true, phase := .draining ending })
      | _ => none
  | none => none

/-- Every request beside has ended, and the connection lets go. -/
def release (runner : IndependentRunner) (id : Nat) : Option IndependentRunner :=
  match runner.connections[id]? with
  | some connection =>
      match connection.phase with
      | .draining _ =>
          if runner.jobs.keysWhere (fun job => job.beside && job.connection = id) = [] then
            some ({ runner with control := (runner.control.release id).2 }.setPhase id .closed)
          else none
      | _ => none
  | none => none

/-- A Stop terminates the processes when it is admitted, and again once every connection ended. -/
def mayKill (runner : IndependentRunner) (processId : String) : Errand → Bool
  | .stop job =>
      (runner.connections[job.connection]?).any (·.phase = .leaving .stop) || runner.allClosed
  | .deadline _ own | .settlement _ own => own = processId
  | .killHook _ _ => false

def errandKill (runner : IndependentRunner) (errand : Errand) (processId : String) :
    Option (Notice × IndependentRunner) :=
  if errand ∈ runner.errands ∧ runner.mayKill processId errand then
    runner.requestKill errand.job processId
  else none

def finishErrand (runner : IndependentRunner) (errand : Errand) : Option (Notice × IndependentRunner) :=
  if errand ∈ runner.errands then
    let rest := { runner with errands := runner.errands.erase errand }
    match errand with
    | .stop job => if runner.allClosed then some (.acts job .answersStop, rest) else none
    | .deadline _ _ => none
    | .settlement job processId => some (.acts job (.abandons processId), rest)
    | .killHook job processId => some (.acts job (.endsScope processId), rest)
  else none

def step (runner : IndependentRunner) : RunnerEvent → Option (Notice × IndependentRunner)
  | .accepts uid => (runner.accept uid).map (.quiet, ·)
  | .readsAhead id frame => (runner.readFrame id frame).map (.quiet, ·)
  | .streamEnds id => (runner.endStream id).map (.quiet, ·)
  | .stopRequested => some (.quiet, { runner with stopping := true })
  | .seesStop id => (runner.seeStop id).map (.quiet, ·)
  | .receives id => runner.receive id
  | .pollsClaim id expired => runner.pollClaim id expired
  | .replies id written => (runner.reply id written).map (.quiet, ·)
  | .reserves id => (runner.reserve id).map (.quiet, ·)
  | .spawns id created => runner.spawn id created
  | .fills id => runner.fill id
  | .detaches id => (runner.detach id).map (.quiet, ·)
  | .kills id processId => runner.kill id processId
  | .answers id => runner.answer id
  | .drains id => (runner.drain id).map (.quiet, ·)
  | .releases id => (runner.release id).map (.quiet, ·)
  | .stopsServing => runner.stopServing.map (.quiet, ·)
  | .errandKills errand processId => runner.errandKill errand processId
  | .finishesErrand errand => runner.finishErrand errand
  | .finishes processId => some (.quiet, { runner with processes := runner.processes.finish processId })
  | .evicts processIds =>
      some (.quiet, { runner with processes := runner.processes.evictCompleted processIds })

end IndependentRunner

structure Observed where
  event : RunnerEvent
  notice : Notice

def runnerSystem : System IndependentRunner Observed where
  initial runner := ∃ ownerUid claimWait limit, runner = .new ownerUid claimWait limit
  step before label after := before.step label.event = some (label.notice, after)

namespace IndependentRunner

def replay (runner : IndependentRunner) (events : List RunnerEvent) :
    Option (List Observed × IndependentRunner) :=
  Transition.replay step Observed.mk runner events

theorem run_of_replay {runner last : IndependentRunner} {events : List RunnerEvent}
    {trace : List Observed} (replayed : runner.replay events = some (trace, last)) :
    runnerSystem.Run runner trace last :=
  System.run_of_replay (fun stepped => by exact stepped) replayed

end IndependentRunner

end CodeSpace.Runner
