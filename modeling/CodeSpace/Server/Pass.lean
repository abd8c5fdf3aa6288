import CodeSpace.Server.Calls

namespace CodeSpace.Server

open Domain Store

/-! One reconciliation after a Claim: `take_account`, then `pass` with `reconcile`, `apply` and `settle`,
and `settle_interrupted_resume` for each approval whose executions the Claim left. -/

inductive PassStage
  | accounts
  | reads
  | loses (runners : List RunnerRef)
  | asks
  | applies (decided : List (ProcessRecord × Decision))
  | settles (approvals : List String)
  | settleMarks (id : String) (started : Option OperationResumeResult) (rest : List String)
  | settleReads (id : String) (started : Option OperationResumeResult) (rest : List String)
  | settleReturns (id : String) (rest : List String)
  | settleFinishes (id : String) (result : OperationResumeResult) (rest : List String)
  | settleFinishWrites (id : String) (result : OperationResumeResult) (rest : List String)
  | settleEnds (id : String) (answer : Except ErrorBody Bool) (rest : List String)
  | tells
  | ended

structure Pass where
  claim : RunnerClaim
  records : List ProcessRecord := []
  losses : Losses := []
  recalled : Except String (List (String × Recalled)) := .ok []
  links : List (ProcessRecord × Link) := []
  bars : Bars := ∅
  stage : PassStage := .accounts

namespace Pass

/-- The Runner answered that it created nothing for the execution, and its record says so. -/
def applyReport (processId : String) (written : Bool) : Decision → Report
  | .notStarted => if written then .disproved processId else .quiet
  | _ => .quiet

/-- The approvals that the executions of the pass resumed, in the order of their identifiers. -/
def resumed (links : List (ProcessRecord × Link)) : List String :=
  ((links.filterMap fun link => link.1.approvalId).dedup).insertionSort (· ≤ ·)

def linksOf (links : List (ProcessRecord × Link)) (id : String) : List Link :=
  (links.filter fun link => link.1.approvalId = some id).map Prod.snd

def startedBy : Link → Option String
  | .started processId => some processId
  | _ => none

/-- The executions of the approval are all among those this pass took up. -/
def covers (pass : Pass) (shared : Shared) (id : String) : Bool :=
  (shared.processes.recordsOfApproval id).all fun record =>
    pass.records.any fun reconciled => reconciled.processId = record.processId

/-- `settle`: consumed with the first execution that started, given back when none did, and left as it
is when whether one started is not known. -/
def settle (pass : Pass) (shared : Shared) (id : String) (rest : List String) : PassStage :=
  if pass.covers shared id then
    match (linksOf pass.links id).findSome? startedBy with
    | some processId => .settleMarks id (some (consumedBy id processId)) rest
    | none =>
        if (linksOf pass.links id).all (· = .notStarted) then .settleMarks id none rest
        else .settles rest
  else .settles rest

/-- An approval that cannot be settled keeps its workspace waiting. -/
def barUnsettled (pass : Pass) (id : String) : Except ErrorBody Bool → Bars
  | .ok _ => pass.bars
  | .error error =>
      match pass.records.find? fun record => record.approvalId = some id with
      | some record =>
          pass.bars.pend record.workspaceId ("approval `" ++ id ++ "` could not be settled: " ++
            error.message)
      | none => pass.bars

/-- The workspaces left waiting once the Runner was told which ones are reconciled. -/
def barUntold (bars : Bars) (workspaceIds : List String) : Option ErrorBody → Bars
  | none => bars
  | some error =>
      workspaceIds.foldl (fun bars workspaceId => bars.pend workspaceId
        ("the Runner could not be told that it is reconciled: " ++ error.message)) bars

/-- One of the Runners that are lost. -/
def lose (shared : Shared) (unwritten : Option String) (runner : RunnerRef) :
    Except String ProcessLoss × ProcessRecords :=
  let loss := ProcessLoss.of runner shared.runner.bootId
  match unwritten with
  | some error => (.error error, shared.processes)
  | none => (.ok loss, shared.processes.recordRunnerLost runner loss)

def advance (config : Config) (shared : Shared) (env : Environment) (pass : Pass) : Turn Pass :=
  match pass.stage with
  | .accounts =>
      { shared := shared.takeAccount env.unreadable pass.claim, stage := { pass with stage := .reads } }
  | .reads =>
      if shared.link.claimed.map RunnerClaim.epoch ≠ some pass.claim.epoch then
        { shared := shared, stage := { pass with stage := .ended } }
      else
        match shared.readRecords env.unreadable pass.claim.epoch with
        | .error reason =>
            { shared := { shared with gate := shared.gate.failPass pass.claim.epoch reason }
              stage := { pass with stage := .ended } }
        | .ok records =>
            { shared := shared
              stage :=
                { pass with records := records, stage := .loses (otherRunners shared.runner records) } }
  | .loses [] => { shared := shared, stage := { pass with stage := .asks } }
  | .loses (runner :: rest) =>
      let lost := lose shared env.unwritten runner
      { shared := { shared with processes := lost.2 }
        stage := { pass with losses := pass.losses ++ [(runner, lost.1)], stage := .loses rest } }
  | .asks =>
      let recalled := recallFor pass.claim shared.runner pass.records env.answers.recalled
      let attempts := lookUp shared.runner pass.records env.answers.attempts
      { shared := shared
        stage :=
          { pass with
            recalled := recalled
            stage := .applies
              (pass.records.map fun record =>
                (record, decideFor config.devguard shared.runner pass.losses recalled attempts
                  record)) } }
  | .applies [] => { shared := shared, stage := { pass with stage := .settles (resumed pass.links) } }
  | .applies ((record, decision) :: rest) =>
      let written := env.unwritten.isNone
      { report := applyReport record.processId written decision
        shared :=
          { shared with
            processes := decision.record written shared.runner record.processId shared.processes }
        stage :=
          { pass with
            links := pass.links ++ [(record, decision.link record.processId written)]
            bars := decision.bar written env.refusal record pass.bars
            stage := .applies rest } }
  | .settles [] =>
      { shared := shared
        stage :=
          { pass with
            bars := (suspects pass.claim pass.records).foldl (barSuspect pass.recalled) pass.bars
            stage := .tells } }
  | .settles (id :: rest) =>
      { shared := shared
        stage := match env.unreadable with
          | some reason =>
              { pass with
                bars := pass.barUnsettled id (.error (ProcessRecords.recordErr reason))
                stage := .settles rest }
          | none => { pass with stage := pass.settle shared id rest } }
  | .settleMarks id started rest =>
      if id ∈ shared.inflight then
        { shared := shared
          stage :=
            { pass with
              bars := pass.barUnsettled id (.error (Approvals.conflict "resume already in progress"))
              stage := .settles rest } }
      else
        { shared := { shared with inflight := id :: shared.inflight }
          stage := { pass with stage := .settleReads id started rest } }
  | .settleReads id started rest =>
      { shared := shared
        stage :=
          { pass with
            stage := match shared.approvals.find? id with
              | none => .settleEnds id (.error (Approvals.notFound id)) rest
              | some row =>
                  if row.state ≠ .resuming then .settleEnds id (.ok false) rest
                  else
                    match started with
                    | some result => .settleFinishes id result rest
                    | none => .settleReturns id rest } }
  | .settleReturns id rest =>
      let returned := shared.approvals.returnResume id
      { shared := { shared with approvals := returned.2 }
        stage := { pass with stage := .settleEnds id (returned.1.map fun _ => true) rest } }
  | .settleFinishes id result rest =>
      { shared := shared
        stage :=
          { pass with
            stage := match shared.approvals.readFinish id (.ok result) with
              | .error error => .settleEnds id (.error error) rest
              | .ok true => .settleEnds id (.ok true) rest
              | .ok false => .settleFinishWrites id result rest } }
  | .settleFinishWrites id result rest =>
      let finished := shared.finishResume id (.ok result)
      { shared := finished.2
        stage := { pass with stage := .settleEnds id (finished.1.map fun _ => true) rest } }
  | .settleEnds id answer rest =>
      { shared := shared.dropGuard id
        stage := { pass with bars := pass.barUnsettled id answer, stage := .settles rest } }
  | .tells =>
      let told := reconciledWorkspaces pass.claim pass.bars
      { shared :=
          { shared with
            gate := shared.gate.closePass pass.claim.epoch (barUntold pass.bars told env.refusal) }
        stage := { pass with stage := .ended } }
  | .ended => { shared := shared, stage := pass }

/-- The approval that the pass has marked in flight. -/
def guarding (pass : Pass) : Option String :=
  match pass.stage with
  | .settleReads id _ _ | .settleReturns id _ | .settleFinishes id _ _
  | .settleFinishWrites id _ _ | .settleEnds id _ _ => some id
  | _ => none

/-- What holds of every change that a section may make holds of the next section. -/
theorem advance_rule {config : Config} {shared : Shared} {env : Environment} (pass : Pass)
    (Fact : Report → Shared → Prop)
    (aside : ∀ gate inflight, Fact .quiet { shared with gate := gate, inflight := inflight })
    (lost : ∀ runner loss, Fact .quiet
      { shared with processes := shared.processes.recordRunnerLost runner loss })
    (applied : ∀ record decision rest, pass.stage = .applies ((record, decision) :: rest) →
      Fact (applyReport record.processId env.unwritten.isNone decision)
        { shared with
          processes :=
            decision.record env.unwritten.isNone shared.runner record.processId shared.processes })
    (returned : ∀ id rest, pass.stage = .settleReturns id rest →
      Fact .quiet { shared with approvals := (shared.approvals.returnResume id).2 })
    (finished : ∀ id result rest, pass.stage = .settleFinishWrites id result rest →
      Fact .quiet (shared.finishResume id (.ok result)).2) :
    Fact (pass.advance config shared env).report (pass.advance config shared env).shared := by
  have idle : Fact .quiet shared := aside shared.gate shared.inflight
  obtain ⟨_, _, _, _, _, _, stage⟩ := pass
  cases stage with
  | reads =>
      dsimp only [advance]
      split
      · exact idle
      · split
        · exact aside _ shared.inflight
        · exact idle
  | loses runners =>
      cases runners with
      | nil => exact idle
      | cons =>
          dsimp only [advance, lose]
          split
          · exact idle
          · exact lost _ _
  | applies decided =>
      cases decided with
      | nil => exact idle
      | cons head rest => exact applied head.1 head.2 rest rfl
  | settles approvals => cases approvals <;> exact idle
  | settleMarks =>
      dsimp only [advance]
      split
      · exact idle
      · exact aside shared.gate _
  | settleReturns id rest => exact returned id rest rfl
  | settleFinishWrites id result rest => exact finished id result rest rfl
  | settleEnds => exact aside shared.gate _
  | accounts | tells => exact aside _ shared.inflight
  | asks | settleReads | settleFinishes | ended => exact idle

end Pass

end CodeSpace.Server
