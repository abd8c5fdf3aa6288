import CodeSpace.Domain.Error
import CodeSpace.Runner.Retention
import CodeSpace.Transition.Run

namespace CodeSpace.Runner

open Data Domain Transition

/-! The slots of a runner: `reserve_slot`, `fill`, the drops of `SlotReservation` and the requests that
hold one, in `crates/runner/src/process.rs`, `admission.rs` and `launch.rs`. Each part that holds the
runner's lock is one step. A reservation is a value with one owner, so a request says where its own is. -/

/-- Who holds a reservation: `prepare`, the `PreparedExecution`, `spawn_slotted` before the process
exists, or the same after it, when `fill` comes next. -/
inductive Owner
  | preparer
  | prepared
  | spawner
  | filler (process : Nat)
deriving DecidableEq, Repr

/-- A request to start a process, from its reservation on. `execution` is whether its
`PreparedExecution` is there. -/
structure SpawnRequest where
  processId : String
  workspaceId : String
  owner : Option Owner
  execution : Bool := false
deriving DecidableEq, Repr

inductive CreatedPhase
  | created
  | running
  | drained
  | ended
deriving DecidableEq, Repr

structure CreatedProcess where
  processId : String
  phase : CreatedPhase := .created
deriving DecidableEq, Repr

structure InProcessRunner where
  inner : Held := Table.empty
  reserved : List String := []
  keep : Option Nat := none
  limit : Nat
  retention : RetentionPolicy
  requests : List SpawnRequest := []
  created : List CreatedProcess := []

/-- What a request does with its reservation: `prepare` refuses or succeeds, `settle` and `not_launched`
clear the slot of the `PreparedExecution`, `launch_managed` takes it, the spawn fails or creates the
process, `fill` hands the slot over, the `PreparedExecution` is dropped. -/
inductive RequestStep
  | refuses
  | prepares
  | settles
  | takes
  | fails
  | creates
  | fills
  | drops
deriving DecidableEq, Repr

inductive SlotEvent
  | requests (processId workspaceId : String) (managed : Bool) (now : Nat)
  | moves (request : Nat) (step : RequestStep) (now : Nat)
  | drains (process : Nat)
  | completes (process now : Nat)
  | acknowledges (processIds : List String) (now : Nat)
  | passes (now : Nat)
  | keeps (keep : Nat)
  | rehashes (rows : List HeldSlot)
deriving DecidableEq, Repr

inductive SlotNotice
  | quiet
  | granted (processId : String)
  | refused (body : ErrorBody)
  | returned (processId : String)
  | filled (processId : String)
deriving DecidableEq, Repr

structure SlotLabel where
  event : SlotEvent
  notice : SlotNotice
deriving DecidableEq, Repr

def HeldSlot.drain (process : Nat) (slot : HeldSlot) : HeldSlot :=
  if slot.process = process then { slot with eof := true } else slot

def HeldSlot.complete (process now : Nat) (slot : HeldSlot) : HeldSlot :=
  if slot.process = process then { slot with completedAt := some now } else slot

def HeldSlot.acknowledge (now : Nat) (slot : HeldSlot) : HeldSlot :=
  { slot with acknowledged := some now }

theorem HeldSlot.acknowledge_processId (now : Nat) (slot : HeldSlot) :
    (slot.acknowledge now).processId = slot.processId := rfl

theorem HeldSlot.drain_processId (process : Nat) (slot : HeldSlot) :
    (slot.drain process).processId = slot.processId := by
  unfold drain
  split <;> rfl

theorem HeldSlot.complete_processId (process now : Nat) (slot : HeldSlot) :
    (slot.complete process now).processId = slot.processId := by
  unfold complete
  split <;> rfl

namespace InProcessRunner

def new (retention : RetentionPolicy) (limit : Nat) : InProcessRunner where
  limit := limit
  retention := retention

def evictCompleted (now : Nat) (runner : InProcessRunner) : InProcessRunner :=
  { runner with inner := runner.inner.evictCompleted runner.retention runner.keep now }

def liveCount (runner : InProcessRunner) : Nat :=
  runner.inner.count fun slot => !slot.eof

def reserveSlot (processId : String) (now : Nat) (runner : InProcessRunner) :
    Except ErrorBody InProcessRunner :=
  let runner := runner.evictCompleted now
  if processId ∈ runner.reserved then
    .error { code := .invalidCommand
             message := "process_id `" ++ processId ++ "` is already in use" }
  else if runner.limit ≤ runner.liveCount + runner.reserved.length then
    .error { code := .workspaceBusy, message := "live process limit reached" }
  else .ok { runner with reserved := processId :: runner.reserved }

def dropReservation (processId : String) (runner : InProcessRunner) : InProcessRunner :=
  { runner with reserved := runner.reserved.filter fun reserved => reserved ≠ processId }

def fill (slot : HeldSlot) (now : Nat) (runner : InProcessRunner) : InProcessRunner :=
  let runner := runner.evictCompleted now
  dropReservation slot.processId { runner with inner := runner.inner.put slot }

def acknowledgeOne (now : Nat) (held : Held) (processId : String) : Held :=
  held.updateWhere
    (fun slot => slot.processId = processId && slot.acknowledged.isNone && slot.isEnded)
    (HeldSlot.acknowledge now) (HeldSlot.acknowledge_processId now)

def acknowledge (processIds : List String) (now : Nat) (runner : InProcessRunner) : InProcessRunner :=
  let runner := { runner with inner := processIds.foldl (acknowledgeOne now) runner.inner }
  runner.evictCompleted now

def keepUntilAcknowledged (keep : Nat) (runner : InProcessRunner) : InProcessRunner :=
  { runner with keep := some (max keep 1) }

def setRequest (index : Nat) (request : SpawnRequest) (runner : InProcessRunner) : InProcessRunner :=
  { runner with requests := runner.requests.set index request }

def setPhase (process : Nat) (phase : CreatedPhase) (runner : InProcessRunner) : InProcessRunner :=
  { runner with
    created := runner.created.modify process fun created => { created with phase := phase } }

/-- The owner lets the reservation go. -/
def giveBack (index : Nat) (request : SpawnRequest) (runner : InProcessRunner) :
    SlotNotice × InProcessRunner :=
  (.returned request.processId,
    (runner.setRequest index { request with owner := none }).dropReservation request.processId)

/-- The tasks of a process set `eof` once its output has ended, and then when that was. -/
def drain (process : Nat) (runner : InProcessRunner) : InProcessRunner :=
  let inner := runner.inner.updateWhere (fun _ => true) (HeldSlot.drain process)
    (HeldSlot.drain_processId process)
  setPhase process .drained { runner with inner := inner }

def complete (process now : Nat) (runner : InProcessRunner) : InProcessRunner :=
  let inner := runner.inner.updateWhere (fun _ => true) (HeldSlot.complete process now)
    (HeldSlot.complete_processId process now)
  setPhase process .ended { runner with inner := inner }

def moveRequest (index : Nat) (request : SpawnRequest) (now : Nat) (runner : InProcessRunner) :
    RequestStep → Option (SlotNotice × InProcessRunner)
  | .refuses =>
      match request.owner with
      | some .preparer => some (runner.giveBack index request)
      | _ => none
  | .prepares =>
      match request.owner with
      | some .preparer =>
          some (.quiet, runner.setRequest index
            { request with owner := some .prepared, execution := true })
      | _ => none
  | .settles =>
      if request.execution then
        match request.owner with
        | some .prepared => some (runner.giveBack index request)
        | _ => some (.quiet, runner)
      else none
  | .takes =>
      match request.owner with
      | some .prepared => some (.quiet, runner.setRequest index { request with owner := some .spawner })
      | _ => none
  | .fails =>
      match request.owner with
      | some .spawner => some (runner.giveBack index request)
      | _ => none
  | .creates =>
      match request.owner with
      | some .spawner =>
          some (.quiet,
            { runner.setRequest index { request with owner := some (.filler runner.created.length) } with
              created := runner.created ++ [{ processId := request.processId }] })
      | _ => none
  | .fills =>
      match request.owner with
      | some (.filler process) =>
          let slot : HeldSlot :=
            { processId := request.processId, workspaceId := request.workspaceId, process := process }
          some (.filled request.processId,
            ((runner.setRequest index { request with owner := none }).fill slot now).setPhase process
              .running)
      | _ => none
  | .drops =>
      if request.execution then
        let request := { request with execution := false }
        match request.owner with
        | some .prepared => some (runner.giveBack index request)
        | _ => some (.quiet, runner.setRequest index request)
      else none

def step (runner : InProcessRunner) : SlotEvent → Option (SlotNotice × InProcessRunner)
  | .requests processId workspaceId managed now =>
      match runner.reserveSlot processId now with
      | .ok reserved =>
          let owner : Owner := if managed then .preparer else .spawner
          some (.granted processId,
            { reserved with requests := reserved.requests ++ [⟨processId, workspaceId, some owner, false⟩] })
      | .error body => some (.refused body, runner.evictCompleted now)
  | .moves index move now =>
      match runner.requests[index]? with
      | some request => runner.moveRequest index request now move
      | none => none
  | .drains process =>
      match runner.created[process]? with
      | some ⟨_, .running⟩ => some (.quiet, runner.drain process)
      | _ => none
  | .completes process now =>
      match runner.created[process]? with
      | some ⟨_, .drained⟩ => some (.quiet, runner.complete process now)
      | _ => none
  | .acknowledges processIds now => some (.quiet, runner.acknowledge processIds now)
  | .passes now => some (.quiet, runner.evictCompleted now)
  | .keeps keep => some (.quiet, runner.keepUntilAcknowledged keep)
  | .rehashes rows =>
      if same : rows.Perm runner.inner.rows then
        some (.quiet, { runner with inner := runner.inner.reorder rows same })
      else none

end InProcessRunner

def slotSystem (retention : RetentionPolicy) (limit : Nat) : System InProcessRunner SlotLabel where
  initial runner := runner = .new retention limit
  step before label after := before.step label.event = some (label.notice, after)

namespace InProcessRunner

theorem exists_admitted_run (admitted : InProcessRunner → SlotLabel → Prop)
    [∀ runner label, Decidable (admitted runner label)] (retention : RetentionPolicy) (limit : Nat)
    (events : List SlotEvent) (holds : List SlotLabel → InProcessRunner → Prop)
    [∀ trace runner, Decidable (holds trace runner)]
    (checked : (replay (admittedStep InProcessRunner.step SlotLabel.mk admitted) SlotLabel.mk
      (.new retention limit) events).any (fun run => decide (holds run.1 run.2)) = true) :
    ∃ trace runner,
      ((slotSystem retention limit).restrict admitted).Run (.new retention limit) trace runner ∧
        holds trace runner :=
  System.exists_admitted_run (fun stepped => stepped) admitted _ events holds checked

end InProcessRunner

/-- The process that the owner of a reservation is about to fill it with. -/
def SpawnRequest.filling (request : SpawnRequest) : Option Nat :=
  match request.owner with
  | some (.filler process) => some process
  | _ => none

inductive SlotStep (before : InProcessRunner) : SlotNotice → InProcessRunner → Prop
  | grants (request : SpawnRequest) (now : Nat) (fresh : request.processId ∉ before.reserved)
      (room : (before.evictCompleted now).liveCount + before.reserved.length < before.limit)
      (owned : request.owner.isSome = true) (unfilled : request.filling = none) :
      SlotStep before (.granted request.processId)
        { before.evictCompleted now with
          reserved := request.processId :: before.reserved
          requests := before.requests ++ [request] }
  | refuses (body : ErrorBody) (now : Nat) : SlotStep before (.refused body) (before.evictCompleted now)
  | passes (now : Nat) : SlotStep before .quiet (before.evictCompleted now)
  | stays : SlotStep before .quiet before
  | shifts {index : Nat} {request : SpawnRequest} (next : SpawnRequest)
      (found : before.requests[index]? = some request) (sameId : next.processId = request.processId)
      (sameOwned : next.owner.isSome = request.owner.isSome)
      (sameFilling : next.filling = request.filling) :
      SlotStep before .quiet (before.setRequest index next)
  | gives {index : Nat} {request : SpawnRequest} (next : SpawnRequest)
      (found : before.requests[index]? = some request) (sameId : next.processId = request.processId)
      (owned : request.owner.isSome = true) (unfilled : request.filling = none)
      (gone : next.owner = none) :
      SlotStep before (.returned request.processId)
        ((before.setRequest index next).dropReservation request.processId)
  | creates {index : Nat} {request : SpawnRequest} (found : before.requests[index]? = some request)
      (owned : request.owner = some .spawner) :
      SlotStep before .quiet
        { before.setRequest index { request with owner := some (.filler before.created.length) } with
          created := before.created ++ [{ processId := request.processId }] }
  | fills {index process : Nat} {request : SpawnRequest} (now : Nat)
      (found : before.requests[index]? = some request)
      (owned : request.owner = some (.filler process)) :
      SlotStep before (.filled request.processId)
        (((before.setRequest index { request with owner := none }).fill
          { processId := request.processId, workspaceId := request.workspaceId, process := process }
          now).setPhase process .running)
  | drains {process : Nat} {id : String} (running : before.created[process]? = some ⟨id, .running⟩) :
      SlotStep before .quiet (before.drain process)
  | completes {process : Nat} {id : String} (now : Nat)
      (drained : before.created[process]? = some ⟨id, .drained⟩) :
      SlotStep before .quiet (before.complete process now)
  | acknowledges (processIds : List String) (now : Nat) :
      SlotStep before .quiet (before.acknowledge processIds now)
  | keeps (keep : Nat) : SlotStep before .quiet (before.keepUntilAcknowledged keep)
  | rehashes {rows : List HeldSlot} (same : rows.Perm before.inner.rows) :
      SlotStep before .quiet { before with inner := before.inner.reorder rows same }

namespace SlotStep

variable {before after : InProcessRunner} {notice : SlotNotice} {event : SlotEvent} {index now : Nat}
  {request : SpawnRequest} {move : RequestStep}

theorem of_move (found : before.requests[index]? = some request)
    (stepped : before.moveRequest index request now move = some (notice, after)) :
    SlotStep before notice after := by
  have filling {owner : Option Owner} (isOwner : request.owner = owner) :
      request.filling = SpawnRequest.filling { request with owner := owner } := by
    rw [← isOwner]
  cases move with
  | refuses | fails =>
      simp only [InProcessRunner.moveRequest] at stepped
      split at stepped <;> cases stepped
      next isOwner => exact .gives _ found rfl (by simp [isOwner]) (filling isOwner) rfl
  | prepares | takes =>
      simp only [InProcessRunner.moveRequest] at stepped
      split at stepped <;> cases stepped
      next isOwner => exact .shifts _ found rfl (by simp [isOwner]) (filling isOwner).symm
  | settles =>
      simp only [InProcessRunner.moveRequest, Option.ite_none_right_eq_some] at stepped
      obtain ⟨_, stepped⟩ := stepped
      split at stepped <;> cases stepped
      next isOwner => exact .gives _ found rfl (by simp [isOwner]) (filling isOwner) rfl
      · exact .stays
  | creates =>
      simp only [InProcessRunner.moveRequest] at stepped
      split at stepped <;> cases stepped
      next isOwner => exact .creates found isOwner
  | fills =>
      simp only [InProcessRunner.moveRequest] at stepped
      split at stepped <;> cases stepped
      next isOwner => exact .fills now found isOwner
  | drops =>
      simp only [InProcessRunner.moveRequest, Option.ite_none_right_eq_some] at stepped
      obtain ⟨_, stepped⟩ := stepped
      split at stepped <;> cases stepped
      next isOwner =>
        exact @SlotStep.gives before index request _ found rfl (by simp [isOwner]) (filling isOwner) rfl
      · exact .shifts _ found rfl rfl rfl

theorem of_eq (stepped : before.step event = some (notice, after)) : SlotStep before notice after := by
  cases event with
  | requests processId workspaceId managed now =>
      simp only [InProcessRunner.step, InProcessRunner.reserveSlot] at stepped
      split at stepped
      next granted =>
        split at granted
        · cases granted
        next fresh =>
          split at granted
          · cases granted
          next room =>
            cases granted
            cases stepped
            refine .grants ⟨processId, workspaceId, _, false⟩ now fresh (Nat.lt_of_not_le room) rfl ?_
            cases managed <;> rfl
      next body _ =>
        cases stepped
        exact .refuses body now
  | moves =>
      simp only [InProcessRunner.step] at stepped
      split at stepped
      next found => exact of_move found stepped
      · cases stepped
  | drains =>
      simp only [InProcessRunner.step] at stepped
      split at stepped <;> cases stepped
      next running => exact .drains running
  | completes _ now =>
      simp only [InProcessRunner.step] at stepped
      split at stepped <;> cases stepped
      next drained => exact .completes now drained
  | acknowledges processIds now =>
      cases stepped
      exact .acknowledges processIds now
  | passes now =>
      cases stepped
      exact .passes now
  | keeps keep =>
      cases stepped
      exact .keeps keep
  | rehashes =>
      simp only [InProcessRunner.step] at stepped
      split at stepped <;> cases stepped
      next same => exact .rehashes same

end SlotStep

end CodeSpace.Runner
