namespace CodeSpace.Domain

/-! `crates/domain/src/work.rs` and `intent.rs`: works, the user intents queued on them, and the
answers of the tools that steer a work. -/

inductive WorkState
  | active
  | closing
  | closed
  | cancelled
deriving DecidableEq, Repr

def WorkState.acceptsClaims : WorkState → Bool
  | .active | .closing => true
  | .closed | .cancelled => false

def WorkState.isOpen : WorkState → Bool
  | .active | .closing => true
  | .closed | .cancelled => false

inductive IntentState
  | draft
  | queued
  | claimed
  | done
  | blocked
  | cancelled
  | superseded
deriving DecidableEq, Repr

def IntentState.isEditable : IntentState → Bool
  | .draft | .queued => true
  | _ => false

inductive DeliveryPolicy
  | nextCheckpoint
  | afterCurrentWork
  | nextWork
deriving DecidableEq, Repr

inductive IntentKind
  | followUp
  | note
  | stopNotice
deriving DecidableEq, Repr

structure Work where
  workId : String
  workspaceId : String
  title : Option String
  state : WorkState
  queueRevision : Nat
deriving DecidableEq, Repr

structure UserIntent where
  intentId : String
  workId : Option String
  workspaceId : String
  position : Nat
  revision : Nat
  kind : IntentKind
  delivery : DeliveryPolicy
  body : String
  state : IntentState
deriving DecidableEq, Repr

structure ClaimedIntent where
  intentId : String
  revision : Nat
  kind : IntentKind
  delivery : DeliveryPolicy
  content : String
deriving DecidableEq, Repr

structure WorkOpenResult where
  workId : String
  workspaceId : String
  state : WorkState
deriving DecidableEq, Repr

structure WorkFinishResult where
  workId : String
  closed : Bool
  reason : Option String
  queued : Nat
  state : WorkState
deriving DecidableEq, Repr

structure SteerStatusResult where
  workId : String
  state : WorkState
  queued : Nat
  claimed : Nat
  claimableNow : Nat
  queueRevision : Nat
deriving DecidableEq, Repr

inductive SteerOutcome
  | done
  | blocked
deriving DecidableEq, Repr

def SteerOutcome.intentState : SteerOutcome → IntentState
  | .done => .done
  | .blocked => .blocked

def finishReasonPending : String := "pending_user_input"

end CodeSpace.Domain
