import CodeSpace.Server.RecordTurns

namespace CodeSpace.Server

open Data Store Transition

/-! The ends of processes between an independent Runner, which keeps an ended process until a controller
acknowledges it, and the records of the gateway: the exits that the records follow
(`crates/server/src/records.rs`, `ProcessRecords::start`), and the reconciliation after a Claim. -/

/-- The two statuses say the same of how the process ended. -/
def RunnerProcessStatus.endsAs (status other : RunnerProcessStatus) : Bool :=
  !status.running && !other.running && status.termination = other.termination &&
    status.exitCode = other.exitCode && status.signal = other.signal

/-- The processes of a Runner: what became of each one that it created, those that it still holds, those
that it will never create, and the epoch of the last Claim it answered. -/
structure RunnerProcesses where
  known : Assoc String RunnerProcessStatus := ∅
  held : List String := []
  refused : List String := []
  epoch : Nat := 0

namespace RunnerProcesses

variable (runner : RunnerProcesses)

def hasCreated (processId : String) : Bool :=
  (runner.known.lookup processId).isSome

/-- The Runner may have stated this status of the process, by now or before. -/
def tells (processId : String) (status : RunnerProcessStatus) : Bool :=
  (runner.known.lookup processId).any fun now =>
    status.processId = processId && (status.running || status.endsAs now)

/-- The Runner may have recalled the process so. -/
def recalls (processId : String) : Recalled → Bool
  | .held _ status => runner.tells processId status
  | .dropped => runner.hasCreated processId && processId ∉ runner.held
  | .notReceived | .refused => !runner.hasCreated processId

/-- What the Runner has not created when it is asked about it, it never will. -/
def refuses (recalled : Except String (List (String × Recalled))) : RunnerProcesses :=
  match recalled with
  | .ok remembered =>
      { runner with
        refused := (remembered.filter fun entry => entry.2 ∈ [.notReceived, .refused]).map Prod.fst ++
          runner.refused }
  | .error _ => runner

/-- The entry of a Claim's inventory is of a process that the Runner holds, as it is. -/
def lists (entry : InventoryEntry) : Bool :=
  entry.processId ∈ runner.held &&
    (runner.known.lookup entry.processId).any fun status => status.running = entry.running

end RunnerProcesses

/-- The process is that of a record that the reconciliation takes up and that has not ended. -/
def accountedFor (records : List ProcessRecord) (processId : String) : Bool :=
  records.any fun record => record.phase ≠ .terminal && record.processId = processId

def endedSuspects (claim : RunnerClaim) (records : List ProcessRecord) :
    Except String (List (String × Recalled)) → List String
  | .error _ => []
  | .ok remembered =>
      ((suspects claim records).filter fun entry =>
        match remembered.lookup entry.processId with
        | some (.held _ status) => !status.running
        | _ => false).map InventoryEntry.processId

/-- The ended processes of a Claim whose records say that they ended, or that have none. -/
def unaccountedEnds (claim : RunnerClaim) (records : List ProcessRecord) : List String :=
  (claim.processes.filter fun entry => !entry.running && !accountedFor records entry.processId).map
    InventoryEntry.processId

/-- What a section of `reconcile` adds to the processes that it acknowledges at its end. -/
def Pass.acknowledges (env : Environment) (pass : Pass) : List String :=
  match pass.stage with
  | .applies ((record, .ended (some _)) :: _) => if env.unwritten.isNone then [record.processId] else []
  | .settles [] =>
      endedSuspects pass.claim pass.records pass.recalled ++ unaccountedEnds pass.claim pass.records
  | _ => []

def PassStage.hasEnded : PassStage → Bool
  | .ended => true
  | _ => false

/-- A reconciliation, and the processes that it acknowledges at its end. -/
structure Reconciler where
  pass : Pass
  acknowledged : List String := []

/-- A gateway and its Runner, as far as the ends of processes are concerned. `exits` are those handed to
the records and not followed yet; `recorded` is the one whose end the records have just written. -/
structure Keeper where
  runner : RunnerProcesses := {}
  shared : Shared
  exits : List String := []
  recorded : Option String := none
  reconciler : Option Reconciler := none

inductive KeeperEvent
  | creates (processId : String)
  | ends (status : RunnerProcessStatus)
  | drops (processId : String)
  | claims (claim : RunnerClaim)
  | links (link : RunnerLink)
  | dispatches (record : ProcessRecord)
  | startAnswered (started : Started)
  | refusalAnswered (processId : String)
  | exits (processId : String)
  | follows (answer : Option RunnerProcessStatus) (written : Bool)
  | acknowledgesExit
  | reconciles (claim : RunnerClaim)
  | proceeds (env : Environment)
  | acknowledgesPass
  | observesOutput (processId : String) (cursor : Nat)
  | losesRunner
  | releasesRecord (processId : String) (nowMs : Nat)
  | reopens

namespace Keeper

def withRunner (keeper : Keeper) (runner : RunnerProcesses) : Option (List String × Keeper) :=
  some ([], { keeper with runner := runner })

def withShared (keeper : Keeper) (shared : Shared) : Option (List String × Keeper) :=
  some ([], { keeper with shared := shared })

/-- The records of the gateway after one of the store's calls. -/
def calls (keeper : Keeper) (call : ProcessCall) : Keeper :=
  { keeper with shared := { keeper.shared with processes := keeper.shared.processes.apply call } }

/-- The end of the exit that is followed is recorded, if it can be, and is then acknowledged. -/
def recordsExit (keeper : Keeper) (processId : String) (rest : List String) (how : ProcessEnd)
    (written : Bool) : Keeper :=
  if written then
    { keeper.calls (.recordEnd keeper.shared.runner processId how) with
      exits := rest, recorded := some processId }
  else { keeper with exits := rest }

/-- What the Runner answers to a reconciliation is true. -/
def isTold (keeper : Keeper) (env : Environment) (pass : Pass) : Bool :=
  match pass.stage, env.answers.recalled with
  | .asks, .ok remembered => remembered.all fun entry => keeper.runner.recalls entry.1 entry.2
  | _, _ => true

def proceed (config : Config) (keeper : Keeper) (env : Environment) (reconciler : Reconciler) : Keeper :=
  let turn := reconciler.pass.advance config keeper.shared env
  { keeper with
    runner := match reconciler.pass.stage with
      | .asks => keeper.runner.refuses env.answers.recalled
      | _ => keeper.runner
    shared := turn.shared
    reconciler := some
      { pass := turn.stage
        acknowledged := reconciler.acknowledged ++ reconciler.pass.acknowledges env } }

/-- A step, with the processes that the gateway acknowledges in it. A new execution has a new identifier
and is sent under a Claim; the Runner creates what it is sent once, under its last Claim at most. A Launch
may be refused after its helper was created and reaped. -/
def step (config : Config) (keeper : Keeper) : KeeperEvent → Option (List String × Keeper)
  | .creates processId =>
      if keeper.runner.hasCreated processId || processId ∈ keeper.runner.refused ||
          (keeper.shared.processes.find? processId).any fun record =>
            record.runner ≠ keeper.shared.runner ||
              record.controllerEpoch.any (keeper.runner.epoch < ·) then none
      else
        keeper.withRunner
          { keeper.runner with
            known := keeper.runner.known.insert processId { processId := processId, running := true }
            held := processId :: keeper.runner.held }
  | .ends status =>
      if !status.running && (keeper.runner.known.lookup status.processId).any (·.running) then
        keeper.withRunner
          { keeper.runner with known := keeper.runner.known.insert status.processId status }
      else none
  | .drops processId =>
      if (keeper.runner.known.lookup processId).any (!·.running) then
        keeper.withRunner
          { keeper.runner with held := keeper.runner.held.filter (· ≠ processId) }
      else none
  | .claims claim =>
      if keeper.runner.epoch < claim.epoch && toSql claim.epoch = claim.epoch &&
          claim.processes.all keeper.runner.lists then
        some ([],
          { keeper with
            runner := { keeper.runner with epoch := claim.epoch }
            shared := { keeper.shared with claims := claim :: keeper.shared.claims } })
      else none
  | .links link =>
      if link.claimed.all (· ∈ keeper.shared.claims) then
        keeper.withShared { keeper.shared with link := link }
      else none
  | .dispatches record =>
      if keeper.runner.hasCreated record.processId || record.runner ≠ keeper.shared.runner ||
          record.phase ≠ .dispatching || record.outcome.isSome || record.releasedAtMs.isSome then none
      else
        match keeper.shared.processes.recordDispatch keeper.shared.approvals record with
        | .ok recorded =>
            keeper.withShared
              { keeper.shared with approvals := recorded.1, processes := recorded.2 }
        | .error _ => none
  | .startAnswered started =>
      some ([], keeper.calls
        (.recordRunning keeper.shared.runner started.processId started.root started.deadlineAtMs))
  | .refusalAnswered processId =>
      let answered := keeper.calls (.recordEnd keeper.shared.runner processId .notStarted)
      if keeper.runner.hasCreated processId then some ([], answered)
      else
        some ([],
          { answered with
            runner := { keeper.runner with refused := processId :: keeper.runner.refused } })
  | .exits processId =>
      if keeper.runner.hasCreated processId then
        some ([], { keeper with exits := keeper.exits ++ [processId] })
      else none
  | .follows answer written =>
      match keeper.exits, keeper.recorded with
      | processId :: rest, none =>
          match answer with
          | some status =>
              if keeper.runner.tells processId status then
                if status.running then some ([], { keeper with exits := rest })
                else some ([], keeper.recordsExit processId rest status.ended written)
              else none
          | none => some ([], keeper.recordsExit processId rest (exitEnd none) written)
      | _, _ => none
  | .acknowledgesExit =>
      keeper.recorded.map fun processId => ([processId], { keeper with recorded := none })
  | .reconciles claim =>
      if claim ∈ keeper.shared.claims && keeper.reconciler.isNone then
        some ([], { keeper with reconciler := some { pass := { claim := claim } } })
      else none
  | .proceeds env =>
      match keeper.reconciler with
      | some reconciler =>
          if keeper.isTold env reconciler.pass then some ([], keeper.proceed config env reconciler)
          else none
      | none => none
  | .acknowledgesPass =>
      (keeper.reconciler.filter (·.pass.stage.hasEnded)).map fun reconciler =>
        (reconciler.acknowledged, { keeper with reconciler := none })
  | .observesOutput processId cursor =>
      some ([], keeper.calls (.recordOutput keeper.shared.runner processId cursor))
  | .losesRunner => some ([], keeper.calls (.recordRunnerLost keeper.shared.runner .runnerLost))
  | .releasesRecord processId nowMs => some ([], keeper.calls (.releaseRecord processId nowMs))
  | .reopens =>
      some ([],
        { runner := keeper.runner
          shared :=
            { keeper.shared with
              inflight := [], failNextFinish := false, gate := {}, claims := [], link := .linked none } })

end Keeper

structure KeeperLabel where
  event : KeeperEvent
  acknowledged : List String

/-- A gateway over its database and its Runner, before anything was sent. The Runner's start is one that
the database can hold. -/
def keeperSystem (config : Config) : System Keeper KeeperLabel where
  initial keeper := ∃ ours link, ours.stored = ours ∧
    keeper = { shared := { runner := ours, link := link } }
  step before label after := before.step config label.event = some (label.acknowledged, after)

end CodeSpace.Server
