import CodeSpace.Server.Shared

namespace CodeSpace.Server

open Domain Store

/-! `apply_patch_inner` and `exec_command_inner`, cut where they take a lock, send to the Runner or wait:
between two stages anything else may happen, and a request dropped while it waits, or a crash, ends
them there. The workspace leases they wait for are not kept here: the scheduler grants or refuses. -/

/-- What one section of a task does: its report, what it leaves, and where the task is then. -/
structure Turn (Stage : Type) where
  report : Report := .quiet
  shared : Shared
  stage : Stage

/-- The approval being resumed, if there is one, is marked. -/
def markFor (approvals : Approvals) : Option String → Except ErrorBody Unit × Approvals
  | some id => approvals.markResuming id
  | none => (.ok (), approvals)

inductive PatchStage
  | waits
  | asks
  | admits (epoch : Option Nat)
  | marks (epoch : Option Nat)
  | begins (epoch : Option Nat)
  | sends (epoch : Option Nat) (operationId : String)
  | awaits (operationId : String)
  | finishes (operationId : String) (result : ApplyPatchResult)
  | rejects (operationId : String) (error : ErrorBody)
  | abandons (operationId : String) (error : ErrorBody)
  | givesBack (error : ErrorBody)
  | returns (outcome : Except ErrorBody ApplyPatchResult)

structure PatchCall where
  params : ApplyPatchParams
  resume : Option String := none
  stage : PatchStage := .waits

namespace PatchCall

/-- Where a fallible section without an answer leads. -/
def after (next : PatchStage) : Except ErrorBody Unit → PatchStage
  | .ok _ => next
  | .error error => .returns (.error error)

def afterBegin (call : PatchCall) (epoch : Option Nat) (hint : Option CoordinationHint) :
    Except ErrorBody Begin → PatchStage
  | .error error => .returns (.error error)
  | .ok (.replayed stored) => .returns (.ok (withHint stored.result call.params.workId hint))
  | .ok (.fresh operationId) => .sends epoch operationId

def afterAnswer (operationId : String) : Except RunnerError Applied → PatchStage
  | .ok applied =>
      .finishes operationId
        { status := applied.status, operationId := operationId, files := applied.files
          changes := applied.changes }
  | .error (.execution error) =>
      if neverSent error then .abandons operationId error else .rejects operationId error
  | .error (.transportBeforeDispatch _) | .error (.transportAmbiguous _) =>
      .finishes operationId (unknownResult operationId)

/-- Only a refusal of a request that was never sent establishes that no Runner acted on it. -/
def answerReport (operationId : String) : Except RunnerError Applied → Report
  | .error (.execution error) => if neverSent error then .disproved operationId else .quiet
  | _ => .quiet

def finishReport (operationId : String) (result : ApplyPatchResult) :
    Except ErrorBody Unit → Report
  | .ok _ => .finished operationId result
  | .error _ => .quiet

def rejected (operationId : String) : ApplyPatchResult where
  status := .rejected
  operationId := operationId

def advance (config : Config) (shared : Shared) (env : Environment) (call : PatchCall) :
    Turn PatchStage :=
  match call.stage with
  | .waits =>
      { shared := shared
        stage := match env.refusal with
          | some error => .returns (.error error)
          | none => .asks }
  | .asks =>
      { shared := shared
        stage := match shared.dispatchEpoch config with
          | .error error => .returns (.error error)
          | .ok epoch => .admits epoch }
  | .admits epoch =>
      let admitted := shared.admitWork env.unreadable call.params.workspaceId epoch
      { shared := admitted.2, stage := after (.marks epoch) admitted.1 }
  | .marks epoch =>
      let marked := markFor shared.approvals call.resume
      { shared := { shared with approvals := marked.2 }, stage := after (.begins epoch) marked.1 }
  | .begins epoch =>
      let begun := shared.operations.begin env.newId call.params.operationKey
        call.params.workspaceId (config.fingerprint (.applyPatch call.params)) shared.now
      { shared := { shared with operations := begun.2, minted := env.newId :: shared.minted }
        stage := call.afterBegin epoch env.hint begun.1 }
  | .sends epoch operationId =>
      { report := .sent
          { approval := call.resume, epoch := epoch, request := .applyPatch operationId call.params }
        shared := shared
        stage := .awaits operationId }
  | .awaits operationId =>
      { report := answerReport operationId env.patch
        shared := shared
        stage := afterAnswer operationId env.patch }
  | .finishes operationId result =>
      let finished := shared.operations.finish operationId result shared.now
      { report := finishReport operationId result finished.1
        shared := { shared with operations := finished.2 }
        stage := after (.returns (.ok (withHint result call.params.workId env.hint))) finished.1 }
  | .rejects operationId error =>
      let finished := shared.operations.finish operationId (rejected operationId) shared.now
      { report := finishReport operationId (rejected operationId) finished.1
        shared := { shared with operations := finished.2 }
        stage := .returns (.error (error.withOperationId operationId)) }
  | .abandons operationId error =>
      { shared := { shared with operations := (shared.operations.abandon operationId).2 }
        stage := .givesBack error }
  | .givesBack error => { shared := shared.giveBack call.resume, stage := .returns (.error error) }
  | .returns outcome => { shared := shared, stage := .returns outcome }

/-- The call waits for the scheduler or the Runner. -/
def isAwaiting (call : PatchCall) : Bool :=
  match call.stage with
  | .waits | .awaits _ => true
  | _ => false

end PatchCall

inductive ExecStage
  | waits
  | asks (processId : String)
  | admits (processId : String) (epoch : Option Nat)
  | dispatches (processId : String) (epoch : Option Nat)
  | sends (processId : String) (epoch : Option Nat)
  | awaits (processId : String)
  | recordsRunning (started : Started)
  | recordsNotStarted (processId : String) (error : ErrorBody)
  | givesBack (error : ErrorBody)
  | returns (outcome : Except ErrorBody ExecCommandResult)

structure ExecCall where
  params : ExecCommandParams
  resume : Option String := none
  stage : ExecStage := .waits

namespace ExecCall

def after (next : ExecStage) : Except ErrorBody Unit → ExecStage
  | .ok _ => next
  | .error error => .returns (.error error)

def record (call : ExecCall) (runner : RunnerRef) (processId : String) (epoch : Option Nat) :
    ProcessRecord where
  processId := processId
  runner := runner
  controllerEpoch := epoch
  workspaceId := call.params.workspaceId
  approvalId := call.resume

/-- `ProcessRecords::dispatching` says that nothing was started. -/
def unrecorded (error : ErrorBody) : ErrorBody :=
  if error.code = .internal then
    { code := .internal
      message := "the execution could not be recorded before it was sent, so nothing was started: " ++
        error.message }
  else error

/-- The approval being resumed is marked with the record, or alone where nothing is recorded. -/
def dispatch (config : Config) (shared : Shared) (call : ExecCall) (processId : String)
    (epoch : Option Nat) : Except ErrorBody Unit × Approvals × ProcessRecords :=
  if config.independent then
    match shared.processes.recordDispatch shared.approvals
        (call.record shared.runner processId epoch) with
    | .ok dispatched => (.ok (), dispatched)
    | .error error => (.error (unrecorded error), shared.approvals, shared.processes)
  else
    let marked := markFor shared.approvals call.resume
    (marked.1, marked.2, shared.processes)

def execResult (processId : String) (status : ExecDispatchStatus)
    (hint : Option CoordinationHint) : ExecCommandResult where
  processId := processId
  dispatchStatus := status
  coordination := hint

/-- Where the Runner's answer leads. Every answer but a lost one says whether the execution started. -/
def afterAnswer (processId : String) (hint : Option CoordinationHint) :
    Except RunnerError Started → ExecStage
  | .ok started => .recordsRunning started
  | .error (.transportAmbiguous _) => .returns (.ok (execResult processId .unknown hint))
  | .error error => .recordsNotStarted processId error.intoErrorBody

def answerReport (processId : String) : Except RunnerError Started → Report
  | .ok _ | .error (.transportAmbiguous _) => .quiet
  | .error _ => .disproved processId

def advance (config : Config) (shared : Shared) (env : Environment) (call : ExecCall) :
    Turn ExecStage :=
  match call.stage with
  | .waits =>
      { shared := { shared with minted := env.newId :: shared.minted }
        stage := match env.refusal with
          | some error => .returns (.error error)
          | none => .asks env.newId }
  | .asks processId =>
      { shared := shared
        stage := match shared.dispatchEpoch config with
          | .error error => .returns (.error error)
          | .ok epoch => .admits processId epoch }
  | .admits processId epoch =>
      let admitted := shared.admitWork env.unreadable call.params.workspaceId epoch
      { shared := admitted.2, stage := after (.dispatches processId epoch) admitted.1 }
  | .dispatches processId epoch =>
      let dispatched := dispatch config shared call processId epoch
      { shared := { shared with approvals := dispatched.2.1, processes := dispatched.2.2 }
        stage := after (.sends processId epoch) dispatched.1 }
  | .sends processId epoch =>
      { report := .sent
          { approval := call.resume, epoch := epoch, request := .exec processId call.params }
        shared := shared
        stage := .awaits processId }
  | .awaits processId =>
      { report := answerReport processId env.exec
        shared := shared
        stage := afterAnswer processId env.hint env.exec }
  | .recordsRunning started =>
      { shared := shared.recordRunning config started
        stage := .returns (.ok (execResult started.processId .confirmed env.hint)) }
  | .recordsNotStarted processId error =>
      { shared := shared.recordNotStarted config processId
        stage := if neverSent error then .givesBack error else .returns (.error error) }
  | .givesBack error => { shared := shared.giveBack call.resume, stage := .returns (.error error) }
  | .returns outcome => { shared := shared, stage := .returns outcome }

def isAwaiting (call : ExecCall) : Bool :=
  match call.stage with
  | .waits | .awaits _ => true
  | _ => false

end ExecCall

end CodeSpace.Server
