import CodeSpace.Server.Recovery
import CodeSpace.Store.Operations

namespace CodeSpace.Server

open Data Domain Store

/-! What the requests of one gateway and its reconciliation share: the tables of the operations
database, the approvals in flight, the connection to the Runner and the gate of new work
(`crates/server/src/mcp.rs`, `CodeSpace`). -/

/-- How a gateway was started. An `independent` one claims its Runner, records each execution before it
is sent, and reconciles what earlier Claims left. -/
structure Config where
  independent : Bool
  devguard : Bool := false
  hash : Json → String
  unreadableParams : Json → String

/-- `Store::fingerprint` and `Store::exec_fingerprint`. -/
def Config.fingerprint (config : Config) (params : ToolParams) : String :=
  config.hash params.canonical

inductive RunnerLink
  | lost (error : ErrorBody)
  | linked (claim : Option RunnerClaim)

def RunnerLink.claimed : RunnerLink → Option RunnerClaim
  | lost _ => none
  | linked claim => claim

inductive RunnerError
  | execution (error : ErrorBody)
  | transportBeforeDispatch (message : String)
  | transportAmbiguous (message : String)

def RunnerError.intoErrorBody : RunnerError → ErrorBody
  | execution error => error
  | transportBeforeDispatch message =>
      { code := .timeout, message := "runner transport failed before dispatch: " ++ message }
  | transportAmbiguous message =>
      { code := .timeout, message := "runner transport result is ambiguous: " ++ message }

/-- A refusal of a request that no independent Runner acted on. -/
def neverSent (error : ErrorBody) : Bool :=
  error.code ∈ [.staleController, .recoveryPending, .runnerReconnecting, .runnerDisconnected]

structure Applied where
  status : PatchStatus
  files : List String := []
  changes : List FileChange := []

/-- The Runner's answer that it started an execution. -/
structure Started where
  processId : String
  root : Option RootProcess := none
  deadlineAtMs : Option Nat := none

/-- What is answered from outside the gateway's own state at a step; each section reads what it asks
for. `refusal` is the registry's, the policy's or the scheduler's; `unreadable` and `unwritten` say why
the process records cannot be read or written. -/
structure Environment where
  refusal : Option ErrorBody := none
  newId : String := ""
  hint : Option CoordinationHint := none
  patch : Except RunnerError Applied := .error (.transportAmbiguous "")
  exec : Except RunnerError Started := .error (.transportAmbiguous "")
  unreadable : Option String := none
  unwritten : Option String := none
  answers : Answers := {}

inductive Request
  | applyPatch (operationId : String) (params : ApplyPatchParams)
  | exec (processId : String) (params : ExecCommandParams)

def Request.id : Request → String
  | applyPatch operationId _ => operationId
  | exec processId _ => processId

/-- A request sent to the Runner, and the approval it was sent for. -/
structure Send where
  approval : Option String
  epoch : Option Nat
  request : Request

def Send.patched? (send : Send) : Option String :=
  match send.request with
  | .applyPatch operationId _ => some operationId
  | .exec _ _ => none

/-- What a step does that a whole run is judged by: a request is sent, it is established that the
Runner did not act on one, or an operation gets a result. -/
inductive Report
  | quiet
  | sent (send : Send)
  | disproved (id : String)
  | finished (operationId : String) (result : ApplyPatchResult)

namespace Report

def send? : Report → Option Send
  | sent send => some send
  | _ => none

def disproved? : Report → Option String
  | disproved id => some id
  | _ => none

def finished? : Report → Option (String × ApplyPatchResult)
  | finished operationId result => some (operationId, result)
  | _ => none

end Report

structure Shared where
  now : Nat := 0
  minted : List String := []
  approvals : Approvals := .empty
  operations : Operations := .empty
  processes : ProcessRecords := .empty
  inflight : List String := []
  failNextFinish : Bool := false
  runner : RunnerRef
  link : RunnerLink
  claims : List RunnerClaim := []
  gate : Gate := {}

namespace Shared

variable (config : Config) (shared : Shared)

def dispatchEpoch : Except ErrorBody (Option Nat) :=
  if config.independent then
    match shared.link with
    | .lost error => .error error
    | .linked claim => .ok (claim.map RunnerClaim.epoch)
  else .ok none

/-- The records that a gateway reconciles, or why they cannot be read. -/
def readRecords (unreadable : Option String) (epoch : Nat) : Except String (List ProcessRecord) :=
  match unreadable with
  | some reason => .error reason
  | none => .ok (shared.processes.recordsToReconcile shared.approvals shared.runner epoch)

def takeAccount (unreadable : Option String) (claim : RunnerClaim) : Shared :=
  { shared with gate := shared.gate.takeAccount claim (shared.readRecords unreadable claim.epoch) }

/-- The Claim of `epoch`, when it is the connection's and not yet taken into account. -/
def claimToAccount (epoch : Option Nat) : Option RunnerClaim :=
  epoch.bind fun epoch =>
    if shared.gate.claimed.all (· < epoch) then
      shared.link.claimed.filter fun claim => claim.epoch = epoch
    else none

/-- `Recovery::admit`, which takes account of a Claim that the gate has not heard of. -/
def admitWork (unreadable : Option String) (workspaceId : String) (epoch : Option Nat) :
    Except ErrorBody Unit × Shared :=
  let gate :=
    match shared.claimToAccount epoch with
    | some claim => (shared.takeAccount unreadable claim).gate
    | none => shared.gate
  (gate.admitWork workspaceId epoch, { shared with gate := gate })

/-- `give_back`: an approval that cannot be given back stays as it is. -/
def giveBack (resume : Option String) : Shared :=
  { shared with
    approvals := match resume with
      | some id => (shared.approvals.returnResume id).2
      | none => shared.approvals }

/-- `record_not_started`, which does nothing in a gateway that records no executions. -/
def recordNotStarted (processId : String) : Shared :=
  { shared with
    processes := if config.independent then shared.processes.recordEnd shared.runner processId .notStarted
      else shared.processes }

def recordRunning (started : Started) : Shared :=
  { shared with
    processes := if config.independent then
        shared.processes.recordRunning shared.runner started.processId started.root
          started.deadlineAtMs
      else shared.processes }

/-- The drop of a `ResumeInflightGuard`. -/
def dropGuard (id : String) : Shared :=
  { shared with inflight := shared.inflight.filter (· ≠ id) }

def finishResume (id : String) (outcome : Except ErrorBody OperationResumeResult) :
    Except ErrorBody Unit × Shared :=
  let written := shared.approvals.writeFinish shared.failNextFinish id outcome
  (written.1, { shared with approvals := written.2, failNextFinish := false })

end Shared

def withHint (result : ApplyPatchResult) (workId : Option String)
    (hint : Option CoordinationHint) : ApplyPatchResult :=
  { result with workId := workId, coordination := hint }

end CodeSpace.Server
