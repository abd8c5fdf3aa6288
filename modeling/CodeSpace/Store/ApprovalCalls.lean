import CodeSpace.Data.Assoc
import CodeSpace.Store.ProcessRecords
import CodeSpace.Transition.Run

namespace CodeSpace.Store

open Data Domain Transition

/-! The store as its callers see it: calls that take the connection once are one step, the others
advance section by section, in any order with each other. -/

/-- Where a call that takes the connection more than once is. -/
inductive Call
  | claim (id : String)
  | claimMark (id : String)
  | claimTake (id : String)
  | claimRetry (id : String)
  | guarded (id : String)
  | finish (id : String) (outcome : Except ErrorBody OperationResumeResult)
  | finishWrite (id : String) (outcome : Except ErrorBody OperationResumeResult)
  | settle (id : String) (started : Option OperationResumeResult)
  | settleRead (id : String) (started : Option OperationResumeResult)
  | settleReturn (id : String)
  | settleFinish (id : String) (result : OperationResumeResult)
  | settleFinishWrite (id : String) (result : OperationResumeResult)

structure ApprovalStore where
  approvals : Approvals := .empty
  processes : ProcessRecords := .empty
  inflight : List String := []
  failNextFinish : Bool := false
  calls : Assoc Nat Call := ∅
  nextCall : Nat := 0

inductive ApprovalEvent
  | createApproval (approvalId workspaceId : String) (tool : ApprovalTargetTool) (fingerprint : String)
      (params : Json)
  | resolveApproval (id : String) (decision : ApprovalDecision) (now : Nat)
  | claimResume (id : String)
  | markResuming (id : String)
  | recordDispatch (record : ProcessRecord)
  | finishResume (id : String) (outcome : Except ErrorBody OperationResumeResult)
  | returnResume (id : String)
  | settleInterruptedResume (id : String) (started : Option OperationResumeResult)
  | continues (call : Nat)
  | failNextFinish
  | reopens

inductive ApprovalAnswer
  | none
  | created (answer : Except ErrorBody ApprovalRecord)
  | resolved (answer : Except ErrorBody ApprovalState)
  | done (answer : Except ErrorBody Unit)
  | claim (answer : Except ErrorBody ResumeClaim)
  | settled (answer : Except ErrorBody Bool)

namespace ApprovalStore

def beginCall (store : ApprovalStore) (call : Call) : ApprovalStore :=
  { store with calls := store.calls.insert store.nextCall call, nextCall := store.nextCall + 1 }

def setCall (store : ApprovalStore) (index : Nat) (call : Call) : ApprovalStore :=
  { store with calls := store.calls.insert index call }

def endCall (store : ApprovalStore) (index : Nat) : ApprovalStore :=
  { store with calls := store.calls.erase index }

/-- The drop of a `ResumeInflightGuard`. -/
def dropGuard (store : ApprovalStore) (id : String) : ApprovalStore :=
  { store with inflight := store.inflight.filter (· ≠ id) }

def inProgress : ErrorBody := Approvals.conflict "resume already in progress"

def markInflight (store : ApprovalStore) (id : String) : Option ApprovalStore :=
  if id ∈ store.inflight then none else some { store with inflight := id :: store.inflight }

/-- The last section of `finish_resume` takes the test hook's flag first. -/
def finishWrite (store : ApprovalStore) (id : String)
    (outcome : Except ErrorBody OperationResumeResult) : Except ErrorBody Unit × ApprovalStore :=
  let written := store.approvals.writeFinish store.failNextFinish id outcome
  (written.1, { store with approvals := written.2, failNextFinish := false })

def advance (store : ApprovalStore) (index : Nat) : Call → ApprovalAnswer × ApprovalStore
  | .claim id =>
      match store.approvals.lookClaim id with
      | some answer => (.claim answer, store.endCall index)
      | none => (.none, store.setCall index (.claimMark id))
  | .claimMark id =>
      match store.markInflight id with
      | some marked => (.none, marked.setCall index (.claimTake id))
      | none => (.claim (.error inProgress), store.endCall index)
  | .claimTake id =>
      match store.approvals.takeClaim id with
      | (some answer, approvals) =>
          (.claim answer, { store with approvals := approvals }.setCall index (.guarded id))
      | (none, approvals) =>
          (.none, { store with approvals := approvals }.setCall index (.claimRetry id))
  | .claimRetry id => (.none, (store.dropGuard id).setCall index (.claim id))
  | .guarded id => (.none, (store.dropGuard id).endCall index)
  | .finish id outcome =>
      match store.approvals.readFinish id outcome with
      | .error error => (.done (.error error), store.endCall index)
      | .ok true => (.done (.ok ()), store.endCall index)
      | .ok false => (.none, store.setCall index (.finishWrite id outcome))
  | .finishWrite id outcome =>
      let written := store.finishWrite id outcome
      (.done written.1, written.2.endCall index)
  | .settle id started =>
      match store.markInflight id with
      | some marked => (.none, marked.setCall index (.settleRead id started))
      | none => (.settled (.error inProgress), store.endCall index)
  | .settleRead id started =>
      match store.approvals.find? id with
      | none => (.settled (.error (Approvals.notFound id)), store.setCall index (.guarded id))
      | some row =>
          if row.state ≠ .resuming then (.settled (.ok false), store.setCall index (.guarded id))
          else
            match started with
            | some result => (.none, store.setCall index (.settleFinish id result))
            | none => (.none, store.setCall index (.settleReturn id))
  | .settleReturn id =>
      let returned := store.approvals.returnResume id
      (.settled (returned.1.map fun _ => true),
        { store with approvals := returned.2 }.setCall index (.guarded id))
  | .settleFinish id result =>
      match store.approvals.readFinish id (.ok result) with
      | .error error => (.settled (.error error), store.setCall index (.guarded id))
      | .ok true => (.settled (.ok true), store.setCall index (.guarded id))
      | .ok false => (.none, store.setCall index (.settleFinishWrite id result))
  | .settleFinishWrite id result =>
      let written := store.finishWrite id (.ok result)
      (.settled (written.1.map fun _ => true), written.2.setCall index (.guarded id))

def step (store : ApprovalStore) : ApprovalEvent → Option (ApprovalAnswer × ApprovalStore)
  | .createApproval approvalId workspaceId tool fingerprint params =>
      let created := store.approvals.createApproval approvalId workspaceId tool fingerprint params
      some (.created created.1, { store with approvals := created.2 })
  | .resolveApproval id decision now =>
      let resolved := store.approvals.resolveApproval id decision now
      some (.resolved resolved.1, { store with approvals := resolved.2 })
  | .markResuming id =>
      let marked := store.approvals.markResuming id
      some (.done marked.1, { store with approvals := marked.2 })
  | .recordDispatch record =>
      match store.processes.recordDispatch store.approvals record with
      | .ok (approvals, processes) =>
          some (.done (.ok ()), { store with approvals := approvals, processes := processes })
      | .error error => some (.done (.error error), store)
  | .returnResume id =>
      let returned := store.approvals.returnResume id
      some (.done returned.1, { store with approvals := returned.2 })
  | .claimResume id => some (.none, store.beginCall (.claim id))
  | .finishResume id outcome => some (.none, store.beginCall (.finish id outcome))
  | .settleInterruptedResume id started => some (.none, store.beginCall (.settle id started))
  | .continues index => (store.calls.lookup index).map (store.advance index)
  | .failNextFinish => some (.none, { store with failNextFinish := true })
  | .reopens => some (.none, { approvals := store.approvals, processes := store.processes })

end ApprovalStore

structure Answered where
  event : ApprovalEvent
  answer : ApprovalAnswer

def approvalSystem : System ApprovalStore Answered where
  initial store := store = {}
  step before label after := before.step label.event = some (label.answer, after)

namespace ApprovalStore

def replay (store : ApprovalStore) (events : List ApprovalEvent) :
    Option (List Answered × ApprovalStore) :=
  Transition.replay step Answered.mk store events

theorem run_of_replay {store last : ApprovalStore} {events : List ApprovalEvent}
    {trace : List Answered} (replayed : store.replay events = some (trace, last)) :
    approvalSystem.Run store trace last :=
  System.run_of_replay (fun stepped => by exact stepped) replayed

end ApprovalStore

end CodeSpace.Store
