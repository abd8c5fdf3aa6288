import Mathlib.Data.List.Sort
import CodeSpace.Data.Assoc
import CodeSpace.Store.ProcessRecords

namespace CodeSpace.Server

open Data Domain Store

/-! `crates/server/src/recovery.rs`: what new work waits for after a Claim of the independent Runner, and
what a reconciliation makes of the records that earlier Claims left. -/

structure InventoryEntry where
  processId : String
  workspaceId : String
  running : Bool
deriving DecidableEq, Repr

/-- The answer to a Claim, as the gateway reads it. -/
structure RunnerClaim where
  epoch : Nat
  barrier : List String := []
  processes : List InventoryEntry := []
deriving DecidableEq, Repr

/-- Why nothing new starts in a workspace yet. -/
inductive Bar
  | pending (reason : String)
  | blocked (reason : String)
deriving DecidableEq, Repr

abbrev Bars := Assoc String Bar

namespace Bars

def pend (bars : Bars) (workspaceId reason : String) : Bars :=
  if (bars.lookup workspaceId).isSome then bars else bars.insert workspaceId (.pending reason)

/-- One that an operator decides on stays so whatever else waits there. -/
def block (bars : Bars) (workspaceId reason : String) : Bars :=
  match bars.lookup workspaceId with
  | some (.blocked _) => bars
  | _ => bars.insert workspaceId (.blocked reason)

end Bars

structure Gate where
  claimed : Option Nat := none
  unreadable : Option String := none
  barred : Bars := ∅

namespace Gate

def recoveryPending (message : String) : ErrorBody where
  code := .recoveryPending
  message := message

/-- Work under no epoch, for a worker that is not claimed, is not reconciled. -/
def admitWork (gate : Gate) (workspaceId : String) : Option Nat → Except ErrorBody Unit
  | none => .ok ()
  | some epoch =>
      if gate.claimed ≠ some epoch then
        .error (recoveryPending ("this gateway claimed its independent Runner again and has not taken " ++
          "account of that Claim yet, so nothing new is started; its processes can be queried, read, " ++
          "written to, resized and terminated. Retry shortly"))
      else
        match gate.unreadable with
        | some reason =>
            .error (recoveryPending ("this gateway could not read its process records to reconcile " ++
              "them with its independent Runner (" ++ reason ++ "), so nothing new is started; its " ++
              "processes can be queried, read, written to, resized and terminated, and it tries " ++
              "again by itself"))
        | none =>
            match gate.barred.lookup workspaceId with
            | none => .ok ()
            | some (.pending reason) =>
                .error (recoveryPending ("nothing new is started in workspace `" ++ workspaceId ++
                  "` until this gateway reconciled it with its independent Runner: " ++ reason ++
                  ". Its processes can be queried, read, written to, resized and terminated, and " ++
                  "the gateway tries again by itself"))
            | some (.blocked reason) =>
                .error (recoveryPending ("nothing new is started in workspace `" ++ workspaceId ++
                  "`: " ++ reason ++ ", so this gateway cannot reconcile it with its independent " ++
                  "Runner until an operator resolves it. Its processes can be queried, read, " ++
                  "written to, resized and terminated"))

/-- The Claim, or a later one, was taken into account already. -/
def passed (gate : Gate) (epoch : Nat) : Bool :=
  gate.claimed.any (epoch ≤ ·)

def waiting : Bar :=
  .pending "its reconciliation after the Claim has not finished"

/-- Until the Claim is reconciled nothing new starts in the workspaces of its barrier, where the
Runner holds a running process, or that a record left to reconcile names. -/
def takeAccount (gate : Gate) (claim : RunnerClaim) (records : Except String (List ProcessRecord)) :
    Gate :=
  if gate.passed claim.epoch then gate
  else
    let running := (claim.processes.filter (·.running)).map InventoryEntry.workspaceId
    let barred : Bars := Assoc.setAll (claim.barrier ++ running) waiting ∅
    match records with
    | .ok records =>
        { claimed := some claim.epoch
          barred := Assoc.setAll (records.map ProcessRecord.workspaceId) waiting barred }
    | .error reason => { claimed := some claim.epoch, unreadable := some reason, barred := barred }

/-- What a pass found, unless another Claim was taken into account meanwhile. -/
def closePass (gate : Gate) (epoch : Nat) (bars : Bars) : Gate :=
  if gate.claimed = some epoch then { gate with unreadable := none, barred := bars } else gate

def failPass (gate : Gate) (epoch : Nat) (reason : String) : Gate :=
  if gate.claimed = some epoch then { gate with unreadable := some reason } else gate

end Gate

structure RunnerProcessStatus where
  processId : String
  running : Bool
  termination : Option ProcessTermination := none
  exitCode : Option Int := none
  signal : Option Int := none
  outputTotal : Nat := 0
deriving DecidableEq, Repr

/-- How a status is recorded once the process ended. -/
def RunnerProcessStatus.ended (status : RunnerProcessStatus) : ProcessEnd :=
  .ended status.termination status.exitCode status.signal (some status.outputTotal)

/-- How an exit that the Runner reported is recorded, by the status it then states, if it does. -/
def exitEnd : Option RunnerProcessStatus → ProcessEnd
  | some status => status.ended
  | none => .ended none none none none

/-- `dropped`: it ended, and how is not known any more. -/
def droppedEnd : ProcessEnd :=
  .ended (some .unknown) none none none

inductive Recalled
  | held (workspaceId : String) (status : RunnerProcessStatus)
  | dropped
  | notReceived
  | refused
deriving DecidableEq, Repr

inductive Decision
  | running
  | ended (status : Option RunnerProcessStatus)
  | notStarted
  | settled (started : Bool)
  | pending (reason : String)
  | blocked (reason : String)
deriving DecidableEq, Repr

/-- What a reconciliation learned of an approval's execution. -/
inductive Link
  | started (processId : String)
  | notStarted
  | unknown
deriving DecidableEq, Repr

def recalledAs : Recalled → String
  | .notReceived => "never received it"
  | .refused => "created nothing for it"
  | .held _ status => if status.running then "holds it running" else "holds it ended"
  | .dropped => "created it and no longer holds it"

/-- `decide`: what became of an execution that takes no part in the resource authority, as its Runner
recalled it. -/
def decideRecord (record : ProcessRecord) (recalled : Recalled) : Decision :=
  match recalled with
  | .held workspaceId status =>
      if workspaceId ≠ record.workspaceId then
        .blocked ("the Runner holds process `" ++ record.processId ++ "` in workspace `" ++
          workspaceId ++ "`, not where its record says")
      else if status.running then .running
      else .ended (some status)
  | .dropped => .ended none
  | .notReceived | .refused =>
      if record.phase = .dispatching then .notStarted
      else
        .blocked ("the record of process `" ++ record.processId ++
          "` says the Runner started it, and the Runner " ++ recalledAs recalled)

/-- A governed execution's attempt, as the resource authority states it. -/
inductive Attempt
  | launched
  | scopeEnded
  | settledBeforeStart
  | absent
  | unsettled
  | failed
deriving DecidableEq, Repr

def Attempt.asStr : Attempt → String
  | launched => "launched"
  | scopeEnded => "released after its scope ended"
  | settledBeforeStart => "settled before it started"
  | absent => "absent"
  | unsettled => "not settled"
  | failed => "not known"

/-- The Runner and the resource authority do not agree on the execution. -/
def attemptMismatch (record : ProcessRecord) (recalled : Recalled) (attemptId : String)
    (attempt : Attempt) : Decision :=
  .blocked ("the Runner and the resource authority do not agree on process `" ++ record.processId ++
    "`: the Runner " ++ recalledAs recalled ++ ", and attempt `" ++ attemptId ++ "` is " ++ attempt.asStr)

def attemptUnsettled (record : ProcessRecord) (attemptId : String) : Decision :=
  .pending ("the resource authority has not settled attempt `" ++ attemptId ++ "` of process `" ++
    record.processId ++ "` yet")

/-- The Runner holds the process running. -/
def decideLaunched (record : ProcessRecord) (recalled : Recalled) (attemptId : String) :
    Attempt → Decision
  | .launched => .running
  | .unsettled => attemptUnsettled record attemptId
  | attempt => attemptMismatch record recalled attemptId attempt

/-- The Runner created the process, and it ended. -/
def decideEnded (record : ProcessRecord) (recalled : Recalled) (attemptId : String) :
    Attempt → Decision
  | .scopeEnded | .settledBeforeStart => decideRecord record recalled
  | .launched | .unsettled => attemptUnsettled record attemptId
  | attempt => attemptMismatch record recalled attemptId attempt

/-- The Runner created nothing for the execution. -/
def decideAbsent (record : ProcessRecord) (recalled : Recalled) (attemptId : String)
    (attempt : Attempt) : Decision :=
  if record.phase ≠ .dispatching then decideRecord record recalled
  else
    match attempt with
    | .absent | .settledBeforeStart => .notStarted
    | .unsettled => attemptUnsettled record attemptId
    | attempt => attemptMismatch record recalled attemptId attempt

/-- The cases of `decide_required` in which the Runner does not hold the process somewhere else. -/
def decideAttempt (record : ProcessRecord) (recalled : Recalled) (attemptId : String)
    (attempt : Attempt) : Decision :=
  if attempt = .failed then
    .pending ("the resource authority could not be asked about attempt `" ++ attemptId ++
      "` of process `" ++ record.processId ++ "`")
  else
    match recalled with
    | .held _ status =>
        if status.running then decideLaunched record recalled attemptId attempt
        else decideEnded record recalled attemptId attempt
    | .dropped => decideEnded record recalled attemptId attempt
    | .notReceived | .refused => decideAbsent record recalled attemptId attempt

/-- The Runner holds the process somewhere else than its record says. -/
def Recalled.isElsewhere (recalled : Recalled) (record : ProcessRecord) : Bool :=
  match recalled with
  | .held workspaceId _ => workspaceId ≠ record.workspaceId
  | _ => false

/-- `decide_required`: what became of a governed execution, as its Runner recalled it and the resource
authority states its attempt. -/
def decideRequired (record : ProcessRecord) (recalled : Recalled)
    (attempts : List (String × Attempt)) : Decision :=
  match record.attemptId, attempts.lookup record.processId with
  | some attemptId, some attempt =>
      if recalled.isElsewhere record then decideRecord record recalled
      else decideAttempt record recalled attemptId attempt
  | _, _ =>
      .blocked ("process `" ++ record.processId ++ "` takes part in the resource authority, and its " ++
        "record names no attempt to look up")

/-- `decide_required` of a gateway built without DevGuard. -/
def decideUngoverned (record : ProcessRecord) : Decision :=
  .blocked ("process `" ++ record.processId ++ "` takes part in the resource authority, which this " ++
    "gateway cannot ask about")

def awaitsRelease (record : ProcessRecord) (loss : ProcessLoss) : String :=
  "process `" ++ record.processId ++ "` " ++
    (match loss with
      | .runnerLost =>
          "was sent to a Runner that was lost, so what became of it cannot be learned and it " ++
            "may still run"
      | .hostRebooted => "was sent to a Runner that the host's restart ended") ++
    "; an operator confirms that nothing of it runs and releases its record (`codespace-mcp records`)"

/-- The record's execution is one to ask the gateway's own Runner about. -/
def isAsked (ours : RunnerRef) (record : ProcessRecord) : Bool :=
  record.phase ∈ [.dispatching, .running] && record.runner = ours

/-- The Runners other than the gateway's own that are lost with what was sent to them. -/
def otherRunners (ours : RunnerRef) (records : List ProcessRecord) : List RunnerRef :=
  ((records.filter fun record =>
    record.phase ∈ [.dispatching, .running] && record.runner ≠ ours).map ProcessRecord.runner).dedup

/-- What became of the mark of the Runners that are lost: of each one, whether it could be recorded. -/
abbrev Losses := List (RunnerRef × Except String ProcessLoss)

/-- The answers that a reconciliation gets: what the Runner recalled of the processes it was asked about,
and the attempts that it looked up. -/
structure Answers where
  recalled : Except String (List (String × Recalled)) := .ok []
  attempts : Except String (List (String × Attempt)) := .ok []

/-- The processes whose attempts are looked up. -/
def governed (ours : RunnerRef) (records : List ProcessRecord) : List String :=
  (records.filter fun record => isAsked ours record && record.participation = .required &&
    record.attemptId.isSome).map ProcessRecord.processId

/-- `look_up`: an attempt that could not be looked up is not known. -/
def lookUp (ours : RunnerRef) (records : List ProcessRecord) :
    Except String (List (String × Attempt)) → List (String × Attempt)
  | .ok found => if governed ours records = [] then [] else found
  | .error _ => (governed ours records).map fun processId => (processId, .failed)

/-- What a reconciliation decides about an execution sent to the gateway's own Runner. -/
def decideAsked (devguard : Bool) (recalled : Except String (List (String × Recalled)))
    (attempts : List (String × Attempt)) (record : ProcessRecord) : Decision :=
  match recalled with
  | .error error =>
      .pending ("the Runner could not be asked about process `" ++ record.processId ++ "`: " ++ error)
  | .ok remembered =>
      match remembered.lookup record.processId with
      | none => .pending ("the Runner did not answer about process `" ++ record.processId ++ "`")
      | some recalled =>
          match record.participation with
          | .off => decideRecord record recalled
          | .required =>
              if devguard then decideRequired record recalled attempts else decideUngoverned record

/-- What a reconciliation decides about an execution sent to a Runner that is lost. -/
def decideLost (losses : Losses) (record : ProcessRecord) : Decision :=
  match losses.lookup record.runner with
  | some (.ok loss) => .blocked (awaitsRelease record loss)
  | some (.error error) =>
      .pending ("the Runner that process `" ++ record.processId ++ "` was sent to is lost, and its " ++
        "record could not say so: " ++ error)
  | none => .pending ("the record of process `" ++ record.processId ++ "` was not marked lost")

def decideFor (devguard : Bool) (ours : RunnerRef) (losses : Losses)
    (recalled : Except String (List (String × Recalled))) (attempts : List (String × Attempt))
    (record : ProcessRecord) : Decision :=
  match record.phase with
  | .terminal => .settled (record.outcome ≠ some .notStarted)
  | .unknown => .blocked (awaitsRelease record (record.lost.getD .runnerLost))
  | .dispatching | .running =>
      if record.runner ≠ ours then decideLost losses record
      else decideAsked devguard recalled attempts record

/-- What `apply` makes of a decision for the approval that the execution resumed; an execution counts as
not started only once its record says so. -/
def Decision.link (processId : String) (written : Bool) : Decision → Link
  | .running | .ended _ | .settled true => .started processId
  | .notStarted => if written then .notStarted else .unknown
  | .settled false => .notStarted
  | .pending _ | .blocked _ => .unknown

/-- What `apply` writes about an execution, if it can: an end that the Runner states is recorded of the
process that the status names. -/
def Decision.record (decision : Decision) (written : Bool) (ours : RunnerRef) (processId : String)
    (processes : ProcessRecords) : ProcessRecords :=
  if written then
    match decision with
    | .running => processes.recordRunning ours processId none none
    | .ended (some status) => processes.recordEnd ours status.processId status.ended
    | .ended none => processes.recordEnd ours processId droppedEnd
    | .notStarted => processes.recordEnd ours processId .notStarted
    | .settled _ | .pending _ | .blocked _ => processes
  else processes

def Bars.pendUnwritten (bars : Bars) (written : Bool) (record : ProcessRecord) : Bars :=
  if written then bars
  else
    bars.pend record.workspaceId ("the record of process `" ++ record.processId ++
      "` could not be updated")

/-- The workspaces where `apply` leaves something waiting; `refusal` is that of the lease of a process
found running. -/
def Decision.bar (decision : Decision) (written : Bool) (refusal : Option ErrorBody)
    (record : ProcessRecord) (bars : Bars) : Bars :=
  match decision with
  | .running =>
      match refusal with
      | some error =>
          (bars.pendUnwritten written record).pend record.workspaceId ("process `" ++
            record.processId ++ "` runs there, and the workspace could not be held for it: " ++
            error.message)
      | none => bars.pendUnwritten written record
  | .ended _ | .notStarted => bars.pendUnwritten written record
  | .settled _ => bars
  | .pending reason => bars.pend record.workspaceId reason
  | .blocked reason => bars.block record.workspaceId reason

/-- The running processes of a Claim that no record left to reconcile accounts for. -/
def suspects (claim : RunnerClaim) (records : List ProcessRecord) : List InventoryEntry :=
  claim.processes.filter fun entry =>
    entry.running && !records.any fun record =>
      record.phase ≠ .terminal && record.processId = entry.processId

/-- The Runner is asked only when there is a process to ask about. -/
def recallFor (claim : RunnerClaim) (ours : RunnerRef) (records : List ProcessRecord)
    (answer : Except String (List (String × Recalled))) : Except String (List (String × Recalled)) :=
  if (records.filter (isAsked ours)).isEmpty && (suspects claim records).isEmpty then .ok [] else answer

/-- What the Runner's answer about a suspect leaves in its workspace. -/
def barSuspect (recalled : Except String (List (String × Recalled))) (bars : Bars)
    (entry : InventoryEntry) : Bars :=
  match recalled with
  | .error error =>
      bars.pend entry.workspaceId ("the Runner could not be asked about process `" ++
        entry.processId ++ "`: " ++ error)
  | .ok remembered =>
      match remembered.lookup entry.processId with
      | some (.held workspaceId status) =>
          if status.running then
            bars.block workspaceId ("process `" ++ entry.processId ++
              "` runs there, and no record of this gateway accounts for it")
          else bars
      | _ => bars

/-- The workspaces of the Claim's barrier that the Runner is told are reconciled. -/
def reconciledWorkspaces (claim : RunnerClaim) (bars : Bars) : List String :=
  claim.barrier.filter fun workspaceId => (bars.lookup workspaceId).isNone

def provesStarted (record : ProcessRecord) : Bool :=
  match record.phase with
  | .running => true
  | .terminal => record.outcome ≠ some .notStarted
  | .dispatching | .unknown => false

def consumedBy (approvalId processId : String) : OperationResumeResult where
  approvalId := approvalId
  state := .consumed
  execCommand := some { processId := processId, dispatchStatus := .confirmed }

end CodeSpace.Server
