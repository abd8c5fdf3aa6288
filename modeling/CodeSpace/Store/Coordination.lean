import Mathlib.Algebra.Group.Nat.Defs
import Mathlib.Data.List.Sort
import CodeSpace.Data.Table
import CodeSpace.Domain.Error
import CodeSpace.Domain.Work
import CodeSpace.Transition.Run

namespace CodeSpace.Store

open Data Domain Transition

/-! `crates/store/src/coord.rs`: works and the intents a user queues on them. Every operation is one
transaction under the connection's mutex, and a refused one rolls back, so an operation is a
function that returns the tables it leaves only when it answers. Ids are minted by the caller of
the function (a UUID in the source); a taken one fails on the primary key. -/

structure Coordination where
  works : Table Work.workId := .empty
  intents : Table UserIntent.intentId := .empty

structure CreateIntent where
  body : String
  kind : IntentKind
  delivery : DeliveryPolicy
deriving DecidableEq, Repr

def dbErr (detail : String) : ErrorBody :=
  { code := .workNotFound, message := "store: " ++ detail }

def workMissing (id : String) : ErrorBody :=
  { code := .workNotFound, message := "unknown work_id `" ++ id ++ "`" }

def intentMissing (id : String) : ErrorBody :=
  { code := .intentNotFound, message := "unknown intent_id `" ++ id ++ "`" }

def claimsClosed : ErrorBody :=
  { code := .workClosed, message := "work is closed; open a new work_id" }

def alreadyClosed : ErrorBody :=
  { code := .workClosed, message := "work is already closed" }

def alreadyRead : ErrorBody :=
  { code := .intentAlreadyClaimed, message := "this intent was already read; add a new item" }

def notEditable (message : String) : ErrorBody :=
  { code := .intentNotEditable, message := message }

def revisionConflict : ErrorBody :=
  { code := .intentRevisionConflict, message := "intent revision does not match" }

/-- The characters `str::trim` removes. -/
def isWhiteSpace (char : Char) : Bool :=
  char.val ∈ [0x09, 0x0A, 0x0B, 0x0C, 0x0D, 0x20, 0x85, 0xA0, 0x1680, 0x2000, 0x2001, 0x2002, 0x2003,
    0x2004, 0x2005, 0x2006, 0x2007, 0x2008, 0x2009, 0x200A, 0x2028, 0x2029, 0x202F, 0x205F, 0x3000]

def claimableDeliveries : WorkState → List DeliveryPolicy
  | .active => [.nextCheckpoint]
  | .closing => [.nextCheckpoint, .afterCurrentWork]
  | .closed | .cancelled => []

/-- `ORDER BY position ASC LIMIT 1`. SQL leaves open which of several rows with the least position
comes first, so the choice is an argument. -/
def firstByPosition (rows : List UserIntent) (tie : Nat) : Option UserIntent :=
  let least := (rows.map UserIntent.position).min?
  let front := rows.filter fun row => some row.position = least
  front[tie % front.length]?

namespace Coordination

def intent (db : Coordination) (intentId : String) : Option UserIntent :=
  db.intents.find? intentId

def loadWork (db : Coordination) (workId : String) : Except ErrorBody Work :=
  match db.works.find? workId with
  | some work => .ok work
  | none => .error (workMissing workId)

def loadIntent (db : Coordination) (intentId : String) : Except ErrorBody UserIntent :=
  match db.intent intentId with
  | some intent => .ok intent
  | none => .error (intentMissing intentId)

def attachedTo (workId : String) (intent : UserIntent) : Bool :=
  intent.workId = some workId

def bumpRevision (db : Coordination) (workId : String) : Coordination :=
  { db with
    works := db.works.updateWhere (fun work => work.workId = workId)
      (fun work => { work with queueRevision := work.queueRevision + 1 }) fun _ => rfl }

/-- `if let Some(work_id) = current.work_id { bump_revision }`. -/
def bumpAttached (db : Coordination) : Option String → Coordination
  | some workId => db.bumpRevision workId
  | none => db

def nextPosition (db : Coordination) (workId : Option String) (workspaceId : String) : Nat :=
  let rows := match workId with
    | some workId => db.intents.rows.filter (attachedTo workId)
    | none => db.intents.rows.filter fun intent =>
        intent.workId = none && intent.workspaceId = workspaceId
  ((rows.map UserIntent.position).max?).getD 0 + 1

def inState (workId : String) (state : IntentState) (intent : UserIntent) : Bool :=
  attachedTo workId intent && intent.state = state

/-- The counts are `i64` in the database and cast to `u32`. -/
def countState (db : Coordination) (workId : String) (state : IntentState) : Nat :=
  db.intents.count (inState workId state) % 2 ^ 32

def countDelivery (db : Coordination) (workId : String) (state : IntentState)
    (delivery : DeliveryPolicy) : Nat :=
  db.intents.count (fun intent => inState workId state intent && intent.delivery = delivery) % 2 ^ 32

/-- The condition of `pending_user_items`. -/
def pends (workId : String) (intent : UserIntent) : Bool :=
  attachedTo workId intent && (intent.state = .queued || intent.state = .claimed) &&
    intent.delivery ≠ .nextWork

def pendingUserItems (db : Coordination) (workId : String) : Nat :=
  db.intents.count (pends workId) % 2 ^ 32

def openWork (db : Coordination) (workspaceId : String) (title : Option String) (minted : String) :
    Except ErrorBody (WorkOpenResult × Coordination) :=
  match db.works.insert? ⟨minted, workspaceId, title, .active, 0⟩ with
  | none => .error (dbErr "UNIQUE constraint failed: works.work_id")
  | some works =>
      let intents := db.intents.updateWhere
        (fun intent => intent.workspaceId = workspaceId && intent.workId = none &&
          intent.state.isEditable)
        (fun intent => { intent with
          workId := some minted
          delivery := if intent.delivery = .nextWork then .afterCurrentWork else intent.delivery
          revision := intent.revision + 1 })
        fun _ => rfl
      .ok (⟨minted, workspaceId, .active⟩,
        Coordination.bumpRevision { works := works, intents := intents } minted)

def claimable (workId : String) (state : WorkState) (intent : UserIntent) : Bool :=
  attachedTo workId intent && intent.state = .queued && intent.delivery ∈ claimableDeliveries state

def countClaimable (db : Coordination) (workId : String) (state : WorkState) : Nat :=
  db.intents.count (claimable workId state) % 2 ^ 32

def steerStatus (db : Coordination) (workId : String) : Except ErrorBody SteerStatusResult := do
  let work ← db.loadWork workId
  .ok ⟨work.workId, work.state, db.countState workId .queued, db.countState workId .claimed,
    db.countClaimable workId work.state, work.queueRevision⟩

def claimNext (db : Coordination) (workId : String) (tie : Nat) :
    Except ErrorBody (Option ClaimedIntent × Coordination) := do
  let work ← db.loadWork workId
  if work.state.acceptsClaims then
    match firstByPosition (db.intents.rows.filter (claimable workId work.state)) tie with
    | none => .ok (none, db)
    | some selected =>
        let wanted := fun intent : UserIntent => intent.intentId = selected.intentId &&
          (intent.state = .queued && intent.revision = selected.revision)
        let intents := db.intents.updateWhere wanted
          (fun intent => { intent with state := .claimed }) fun _ => rfl
        if db.intents.count wanted ≠ 1 then .ok (none, { db with intents := intents })
        else
          .ok (some ⟨selected.intentId, selected.revision, selected.kind, selected.delivery,
              selected.body⟩,
            Coordination.bumpRevision { db with intents := intents } workId)
  else .error claimsClosed

def completeIntent (db : Coordination) (workId intentId : String) (outcome : SteerOutcome) :
    Except ErrorBody (UserIntent × Coordination) := do
  let intent ← db.loadIntent intentId
  if intent.workId ≠ some workId then .error (intentMissing intentId)
  else if intent.state ≠ .claimed then .error (notEditable "only claimed intents can be completed")
  else
    let intents := db.intents.updateWhere (fun row => row.intentId = intentId)
      (fun row => { row with state := outcome.intentState }) fun _ => rfl
    .ok ({ intent with state := outcome.intentState },
      Coordination.bumpRevision { db with intents := intents } workId)

def finishWork (db : Coordination) (workId : String) :
    Except ErrorBody (WorkFinishResult × Coordination) := do
  let work ← db.loadWork workId
  if work.state.isOpen then
    let claimed := db.countState workId .claimed
    let queuedCheckpoint := db.countDelivery workId .queued .nextCheckpoint
    let queuedAfter := db.countDelivery workId .queued .afterCurrentWork
    let remaining := (claimed + queuedCheckpoint + queuedAfter) % 2 ^ 32
    if 0 < claimed ∨ 0 < queuedCheckpoint then
      .ok (⟨work.workId, false, some finishReasonPending, remaining, work.state⟩, db)
    else if 0 < queuedAfter then
      let pending := ⟨work.workId, false, some finishReasonPending, queuedAfter, .closing⟩
      if work.state = .active then
        let works := db.works.updateWhere (fun row => row.workId = workId)
          (fun row => { row with state := .closing }) fun _ => rfl
        .ok (pending, Coordination.bumpRevision { db with works := works } workId)
      else .ok (pending, db)
    else
      let intents := db.intents.updateWhere
        (fun intent => attachedTo workId intent &&
          (intent.state.isEditable || intent.delivery = .nextWork))
        (fun intent => { intent with workId := none }) fun _ => rfl
      let works := db.works.updateWhere (fun row => row.workId = workId)
        (fun row => { row with state := .closed, queueRevision := row.queueRevision + 1 }) fun _ => rfl
      .ok (⟨work.workId, true, none, 0, .closed⟩, { works := works, intents := intents })
  else .error alreadyClosed

/-- The insertion shared by `create_draft` and `insert_stop_notice`: into the work while it is open,
otherwise into its workspace. -/
def insertIntent (db : Coordination) (work : Work) (minted : String) (kind : IntentKind)
    (delivery : DeliveryPolicy) (body : String) (state : IntentState) :
    Except ErrorBody (UserIntent × Coordination) :=
  let storedWorkId := if work.state.isOpen then some work.workId else none
  let intent : UserIntent := ⟨minted, storedWorkId, work.workspaceId,
    db.nextPosition storedWorkId work.workspaceId, 1, kind, delivery, body, state⟩
  match db.intents.insert? intent with
  | none => .error (dbErr "UNIQUE constraint failed: intents.intent_id")
  | some intents =>
      .ok (intent, Coordination.bumpAttached { db with intents := intents } storedWorkId)

def createDraft (db : Coordination) (workId : String) (create : CreateIntent) (minted : String) :
    Except ErrorBody (UserIntent × Coordination) := do
  let work ← db.loadWork workId
  let delivery := if work.state.isOpen then create.delivery else .nextWork
  db.insertIntent work minted create.kind delivery create.body .draft

def stopNoticeBody (reason : String) : String :=
  if reason.toList.all isWhiteSpace then "user stopped current execution"
  else "user stopped current execution: " ++ reason

def insertStopNotice (db : Coordination) (workId reason minted : String) :
    Except ErrorBody (UserIntent × Coordination) := do
  let work ← db.loadWork workId
  let state := if work.state.isOpen then IntentState.claimed else .queued
  db.insertIntent work minted .stopNotice .nextCheckpoint (stopNoticeBody reason) state

def editIntent (db : Coordination) (intentId : String) (revision : Nat) (body : String)
    (delivery : Option DeliveryPolicy) : Except ErrorBody (UserIntent × Coordination) := do
  let current ← db.loadIntent intentId
  if current.state = .claimed then .error alreadyRead
  else if ¬ current.state.isEditable then
    .error (notEditable "only draft and queued intents can be edited")
  else if current.revision ≠ revision then .error revisionConflict
  else
    let wanted := fun intent : UserIntent => intent.intentId = intentId &&
      (intent.revision = revision && intent.state.isEditable)
    let intents := db.intents.updateWhere wanted
      (fun intent => { intent with
        body := body
        delivery := delivery.getD current.delivery
        revision := intent.revision + 1 })
      fun _ => rfl
    if db.intents.count wanted ≠ 1 then .error alreadyRead
    else
      let next := Coordination.bumpAttached { db with intents := intents } current.workId
      let intent ← next.loadIntent intentId
      .ok (intent, next)

def queueIntent (db : Coordination) (intentId : String) (revision : Nat) :
    Except ErrorBody (UserIntent × Coordination) := do
  let current ← db.loadIntent intentId
  if current.state ≠ .draft then .error (notEditable "only drafts can be queued")
  else if current.revision ≠ revision then .error revisionConflict
  else
    let wanted := fun intent : UserIntent => intent.intentId = intentId &&
      (intent.revision = revision && intent.state = .draft)
    let intents := db.intents.updateWhere wanted
      (fun intent => { intent with state := .queued, revision := intent.revision + 1 }) fun _ => rfl
    if db.intents.count wanted ≠ 1 then .error alreadyRead
    else
      let next := Coordination.bumpAttached { db with intents := intents } current.workId
      let intent ← next.loadIntent intentId
      .ok (intent, next)

def cancelIntent (db : Coordination) (intentId : String) :
    Except ErrorBody (UserIntent × Coordination) := do
  let current ← db.loadIntent intentId
  if ¬ current.state.isEditable then
    .error (notEditable "claimed intents cannot be cancelled; add a new item")
  else
    let intents := db.intents.updateWhere (fun intent => intent.intentId = intentId)
      (fun intent => { intent with state := .cancelled }) fun _ => rfl
    .ok ({ current with state := .cancelled },
      Coordination.bumpAttached { db with intents := intents } current.workId)

def listIntents (db : Coordination) (workId workspaceId : String) : List UserIntent :=
  let rank : IntentState → Nat
    | .claimed => 0
    | .queued => 1
    | .draft => 2
    | _ => 3
  let rows := db.intents.rows.filter fun intent => attachedTo workId intent ||
    (intent.workId = none && intent.workspaceId = workspaceId)
  rows.insertionSort fun left right => rank left.state < rank right.state ∨
    rank left.state = rank right.state ∧ left.position ≤ right.position

def reorderQueued (db : Coordination) (workId : String) (intentIds : List String) :
    Except ErrorBody (List UserIntent × Coordination) := do
  let work ← db.loadWork workId
  let existing := (db.intents.rows.filter fun intent =>
    attachedTo workId intent && intent.state = .queued).map UserIntent.intentId
  if existing.length ≠ intentIds.length ∨ ¬ intentIds.all (· ∈ existing) then
    .error (notEditable "reorder must list exactly the queued intents on this work")
  else
    let intents := intentIds.zipIdx.foldl (fun intents (listed : String × Nat) =>
      intents.updateWhere (fun intent => intent.intentId = listed.1 && intent.state = .queued)
        (fun intent => { intent with position := listed.2 + 1 }) fun _ => rfl) db.intents
    let next := Coordination.bumpRevision { db with intents := intents } workId
    .ok (next.listIntents work.workId work.workspaceId, next)

end Coordination

inductive CoordinationCall
  | openWork (workspaceId : String) (title : Option String) (minted : String)
  | createDraft (workId : String) (create : CreateIntent) (minted : String)
  | editIntent (intentId : String) (revision : Nat) (body : String) (delivery : Option DeliveryPolicy)
  | queueIntent (intentId : String) (revision : Nat)
  | reorderQueued (workId : String) (intentIds : List String)
  | claimNext (workId : String) (tie : Nat)
  | completeIntent (workId intentId : String) (outcome : SteerOutcome)
  | cancelIntent (intentId : String)
  | insertStopNotice (workId reason minted : String)
  | finishWork (workId : String)
deriving DecidableEq, Repr

inductive CoordinationReply
  | opened (result : WorkOpenResult)
  | intent (intent : UserIntent)
  | listed (intents : List UserIntent)
  | claimed (item : Option ClaimedIntent)
  | finished (result : WorkFinishResult)
deriving DecidableEq, Repr

namespace Coordination

def perform (db : Coordination) : CoordinationCall → Except ErrorBody (CoordinationReply × Coordination)
  | .openWork workspaceId title minted =>
      (db.openWork workspaceId title minted).map fun answer => (.opened answer.1, answer.2)
  | .createDraft workId create minted =>
      (db.createDraft workId create minted).map fun answer => (.intent answer.1, answer.2)
  | .editIntent intentId revision body delivery =>
      (db.editIntent intentId revision body delivery).map fun answer => (.intent answer.1, answer.2)
  | .queueIntent intentId revision =>
      (db.queueIntent intentId revision).map fun answer => (.intent answer.1, answer.2)
  | .reorderQueued workId intentIds =>
      (db.reorderQueued workId intentIds).map fun answer => (.listed answer.1, answer.2)
  | .claimNext workId tie =>
      (db.claimNext workId tie).map fun answer => (.claimed answer.1, answer.2)
  | .completeIntent workId intentId outcome =>
      (db.completeIntent workId intentId outcome).map fun answer => (.intent answer.1, answer.2)
  | .cancelIntent intentId =>
      (db.cancelIntent intentId).map fun answer => (.intent answer.1, answer.2)
  | .insertStopNotice workId reason minted =>
      (db.insertStopNotice workId reason minted).map fun answer => (.intent answer.1, answer.2)
  | .finishWork workId => (db.finishWork workId).map fun answer => (.finished answer.1, answer.2)

end Coordination

structure Exchange where
  call : CoordinationCall
  reply : Except ErrorBody CoordinationReply

def coordinationSystem : System Coordination Exchange where
  initial db := db = {}
  step before exchange after :=
    match before.perform exchange.call with
    | .ok (reply, next) => exchange.reply = .ok reply ∧ after = next
    | .error error => exchange.reply = .error error ∧ after = before

namespace Coordination

/-- One call with the answer it gets and the tables it leaves. -/
def answer (db : Coordination) (call : CoordinationCall) : Exchange × Coordination :=
  match db.perform call with
  | .ok (reply, next) => (⟨call, .ok reply⟩, next)
  | .error error => (⟨call, .error error⟩, db)

def replay (db : Coordination) : List CoordinationCall → List Exchange × Coordination
  | [] => ([], db)
  | call :: calls =>
      let rest := (db.answer call).2.replay calls
      ((db.answer call).1 :: rest.1, rest.2)

theorem step_answer (db : Coordination) (call : CoordinationCall) :
    coordinationSystem.step db (db.answer call).1 (db.answer call).2 := by
  simp only [coordinationSystem, answer]
  cases answered : db.perform call with
  | error | ok => simp [answered]

theorem run_replay (db : Coordination) (calls : List CoordinationCall) :
    coordinationSystem.Run db (db.replay calls).1 (db.replay calls).2 := by
  induction calls generalizing db with
  | nil => exact .refl db
  | cons call _ ih => exact .cons (step_answer db call) (ih _)

end Coordination

end CodeSpace.Store
