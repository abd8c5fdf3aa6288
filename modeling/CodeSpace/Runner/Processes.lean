import CodeSpace.Data.Assoc
import CodeSpace.Domain.Error

namespace CodeSpace.Runner

open Data Domain

/-! `crates/runner/src/process.rs`: the slots of a runner's processes and what it remembers of the
requests to start them. Which ended processes `evict_completed` lets go depends on the clock and on
the retention policy; here it may let go of any ended one, at any moment. -/

structure Slot where
  workspaceId : String
  ended : Bool
  acknowledged : Bool
  onKill : Bool
deriving DecidableEq, Repr

inductive Received
  | executed
  | refused
deriving DecidableEq, Repr

inductive Recalled
  | notReceived
  | refused
  | held (workspaceId : String) (ended : Bool)
  | dropped
deriving DecidableEq, Repr

structure Processes where
  slots : Assoc String Slot := ∅
  reserved : List String := []
  keep : Option Nat := none
  received : Assoc String Received := ∅

namespace Processes

def keepUntilAcknowledged (processes : Processes) (keep : Nat) : Processes :=
  { processes with keep := some (max keep 1) }

def liveCount (processes : Processes) : Nat :=
  (processes.slots.keysWhere fun slot => !slot.ended).length

def reserveSlot (processes : Processes) (limit : Nat) (processId : String) :
    Except ErrorBody Processes :=
  if processId ∈ processes.reserved then
    .error { code := .invalidCommand
             message := "process_id `" ++ processId ++ "` is already in use" }
  else if limit ≤ processes.liveCount + processes.reserved.length then
    .error { code := .workspaceBusy, message := "live process limit reached" }
  else .ok { processes with reserved := processId :: processes.reserved }

/-- The drop of a reservation. -/
def freeSlot (processes : Processes) (processId : String) : Processes :=
  { processes with reserved := processes.reserved.filter (· ≠ processId) }

def remember (processes : Processes) (processId : String) (received : Received) : Processes :=
  if processes.keep.isNone then processes
  else
    let known := (processes.received.lookup processId).getD received
    let known := if received = .executed then .executed else known
    { processes with received := processes.received.insert processId known }

def fill (processes : Processes) (workspaceId processId : String) (onKill : Bool) : Processes :=
  let filled : Processes :=
    { processes with slots := processes.slots.insert processId ⟨workspaceId, false, false, onKill⟩ }
  (filled.freeSlot processId).remember processId .executed

def noteReceived (processes : Processes) (processId : String) : Processes :=
  processes.remember processId .refused

def acknowledge (processes : Processes) (processIds : List String) : Processes :=
  { processes with
    slots := processIds.foldl (fun slots processId =>
      match slots.lookup processId with
      | some slot =>
          if slot.ended then slots.insert processId { slot with acknowledged := true } else slots
      | none => slots) processes.slots }

/-- The process's output has ended. -/
def finish (processes : Processes) (processId : String) : Processes :=
  match processes.slots.lookup processId with
  | some slot =>
      { processes with slots := processes.slots.insert processId { slot with ended := true } }
  | none => processes

def evictCompleted (processes : Processes) (dropped : List String) : Processes :=
  { processes with
    slots := processes.slots.eraseAll
      ((processes.slots.keysWhere Slot.ended).filter (· ∈ dropped)) }

end Processes

def Processes.recall (processes : Processes) (processId : String) : Recalled :=
  match processes.slots.lookup processId with
  | some slot => .held slot.workspaceId slot.ended
  | none =>
      match processes.received.lookup processId with
      | some .executed => .dropped
      | some .refused => .refused
      | none => .notReceived

end CodeSpace.Runner
