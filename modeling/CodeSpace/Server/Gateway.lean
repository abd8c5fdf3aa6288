import CodeSpace.Server.Pass
import CodeSpace.Server.Resume
import CodeSpace.Transition.Run

namespace CodeSpace.Server

open Data Domain Store Transition

/-! A gateway over its operations database: requests and reconciliations in any interleaving, requests
dropped where they wait, and crashes after which the database is opened again. -/

inductive Task
  | patch (call : PatchCall)
  | exec (call : ExecCall)
  | resume (call : ResumeCall)
  | recovery (pass : Pass)

namespace Task

/-- The next section of a task; none of them is left when it has answered. -/
def advance (config : Config) (shared : Shared) (env : Environment) : Task → Turn (Option Task)
  | patch call =>
      match call.stage with
      | .returns _ => { shared := shared, stage := none }
      | _ =>
          let turn := call.advance config shared env
          { report := turn.report, shared := turn.shared
            stage := some (patch { call with stage := turn.stage }) }
  | exec call =>
      match call.stage with
      | .returns _ => { shared := shared, stage := none }
      | _ =>
          let turn := call.advance config shared env
          { report := turn.report, shared := turn.shared
            stage := some (exec { call with stage := turn.stage }) }
  | resume call =>
      match call.stage with
      | .answers _ => { shared := shared, stage := none }
      | _ =>
          let turn := call.advance config shared env
          { report := turn.report, shared := turn.shared
            stage := some (resume { call with stage := turn.stage }) }
  | recovery pass =>
      match pass.stage with
      | .ended => { shared := shared, stage := none }
      | _ =>
          let turn := pass.advance config shared env
          { report := turn.report, shared := turn.shared, stage := some (recovery turn.stage) }

/-- The approval that the task holds marked in flight. -/
def guarding : Task → Option String
  | patch _ | exec _ => none
  | resume call => if call.isGuarding then some call.approvalId else none
  | recovery pass => pass.guarding

/-- A request is dropped only where it waits; a reconciliation never is. -/
def isAwaiting : Task → Bool
  | patch call => call.isAwaiting
  | exec call => call.isAwaiting
  | resume call => call.isAwaiting
  | recovery _ => false

def isPass : Task → Bool
  | recovery _ => true
  | _ => false

/-- What holds of every change that a section may make holds of the next section. -/
theorem advance_rule {config : Config} {shared : Shared} {env : Environment} (task : Task)
    (Fact : Report → Shared → Prop)
    (aside : ∀ gate inflight, Fact .quiet { shared with gate := gate, inflight := inflight })
    (patched : ∀ call, (task = patch call ∨ ∃ id, task = resume ⟨id, .patches call⟩) →
      Fact (call.advance config shared env).report (call.advance config shared env).shared)
    (executed : ∀ call, (task = exec call ∨ ∃ id, task = resume ⟨id, .execs call⟩) →
      Fact (call.advance config shared env).report (call.advance config shared env).shared)
    (claimed : ∀ id, task = resume ⟨id, .claimTakes⟩ →
      Fact .quiet { shared with approvals := (shared.approvals.takeClaim id).2 })
    (committed : ∀ id outcome, task = resume ⟨id, .commitWrites outcome⟩ →
      Fact .quiet (shared.finishResume id outcome).2)
    (recovered : ∀ pass, task = recovery pass →
      Fact (pass.advance config shared env).report (pass.advance config shared env).shared) :
    Fact (task.advance config shared env).report (task.advance config shared env).shared := by
  have idle : Fact .quiet shared := aside shared.gate shared.inflight
  cases task with
  | patch call =>
      dsimp only [advance]
      split
      · exact idle
      · exact patched call (.inl rfl)
  | exec call =>
      dsimp only [advance]
      split
      · exact idle
      · exact executed call (.inl rfl)
  | recovery pass =>
      dsimp only [advance]
      split
      · exact idle
      · exact recovered pass rfl
  | resume call =>
      obtain ⟨id, stage⟩ := call
      cases stage with
      | patches inner =>
          dsimp only [advance, ResumeCall.advance]
          split
          · exact idle
          · exact patched inner (.inr ⟨id, rfl⟩)
      | execs inner =>
          dsimp only [advance, ResumeCall.advance]
          split
          · exact idle
          · exact executed inner (.inr ⟨id, rfl⟩)
      | claimMarks =>
          dsimp only [advance, ResumeCall.advance]
          split
          · exact idle
          · exact aside shared.gate _
      | claimTakes => exact claimed id rfl
      | commitWrites outcome => exact committed id outcome rfl
      | admits => exact aside _ shared.inflight
      | claimRetries | ends => exact aside shared.gate _
      | _ => exact idle

end Task

/-- A store just opened, with a Runner that may be claimed already: `Recovery::start` takes account of
that Claim before any request. -/
def Shared.opened (config : Config) (stored : Shared) (runner : RunnerRef) (link : RunnerLink) :
    Shared :=
  let opened : Shared :=
    { now := stored.now, minted := stored.minted, approvals := stored.approvals
      operations := stored.operations, processes := stored.processes, runner := runner, link := link
      claims := link.claimed.toList }
  match link.claimed with
  | some claim => if config.independent then opened.takeAccount none claim else opened
  | none => opened

theorem Shared.opened_stored (config : Config) (stored : Shared) (runner : RunnerRef)
    (link : RunnerLink) :
    (stored.opened config runner link).approvals = stored.approvals ∧
      (stored.opened config runner link).operations = stored.operations ∧
      (stored.opened config runner link).processes = stored.processes ∧
      (stored.opened config runner link).minted = stored.minted ∧
      (stored.opened config runner link).now = stored.now := by
  unfold opened
  split
  · split <;> exact ⟨rfl, rfl, rfl, rfl, rfl⟩
  · exact ⟨rfl, rfl, rfl, rfl, rfl⟩

structure Gateway where
  shared : Shared
  tasks : Assoc Nat Task := ∅
  nextTask : Nat := 0

inductive Event
  | applyPatch (params : ApplyPatchParams)
  | execCommand (params : ExecCommandParams)
  | createApproval (approvalId : String) (params : ToolParams)
  | resolveApproval (id : String) (decision : ApprovalDecision)
  | operationResume (id : String)
  | reconciles (claim : RunnerClaim)
  | continues (task : Nat) (env : Environment)
  | cancels (task : Nat)
  | ticks (seconds : Nat)
  | links (link : RunnerLink)
  | processEnds (processId : String) (status : Option RunnerProcessStatus)
  | observesOutput (processId : String) (cursor : Nat)
  | losesRunner
  | releasesRecord (processId : String) (nowMs : Nat)
  | failNextFinish
  | reopens (runner : RunnerRef) (link : RunnerLink)

variable {gateway last after before : Gateway} {index : Nat} {config : Config} {events : List Event}
  {event : Event} {report : Report}

namespace Gateway

def startTask (gateway : Gateway) (task : Task) : Gateway :=
  { gateway with
    tasks := gateway.tasks.insert gateway.nextTask task
    nextTask := gateway.nextTask + 1 }

/-- The task is where its section left it, or gone. -/
def setTask (gateway : Gateway) (index : Nat) (shared : Shared) : Option Task → Gateway
  | some task => { gateway with shared := shared, tasks := gateway.tasks.insert index task }
  | none => { gateway with shared := shared, tasks := gateway.tasks.erase index }

variable {shared : Shared} {task : Option Task}

theorem setTask_shared : (gateway.setTask index shared task).shared = shared := by
  cases task <;> rfl

theorem lookup_setTask : (gateway.setTask index shared task).tasks.lookup index = task := by
  cases task <;> simp [setTask]

theorem lookup_setTask_of_ne {other : Nat} (apart : other ≠ index) :
    (gateway.setTask index shared task).tasks.lookup other = gateway.tasks.lookup other := by
  cases task with
  | none => exact AList.lookup_erase_ne apart
  | some => exact AList.lookup_insert_ne apart

def dropTask (gateway : Gateway) (index : Nat) (task : Task) : Gateway :=
  match task.guarding with
  | some id => gateway.setTask index (gateway.shared.dropGuard id) none
  | none => gateway.setTask index gateway.shared none

def isReconciling (gateway : Gateway) : Bool :=
  gateway.tasks.entries.any fun entry => entry.2.isPass

def withShared (gateway : Gateway) (shared : Shared) : Option (Report × Gateway) :=
  some (.quiet, { gateway with shared := shared })

/-- The identifiers that the environment mints are new ones. -/
def step (config : Config) (gateway : Gateway) : Event → Option (Report × Gateway)
  | .applyPatch params => some (.quiet, gateway.startTask (.patch { params := params }))
  | .execCommand params => some (.quiet, gateway.startTask (.exec { params := params }))
  | .operationResume id => some (.quiet, gateway.startTask (.resume { approvalId := id }))
  | .createApproval approvalId params =>
      gateway.withShared { gateway.shared with
        approvals := (gateway.shared.approvals.createApproval approvalId params.workspaceId params.tool
          (config.fingerprint params) params.toJson).2 }
  | .resolveApproval id decision =>
      gateway.withShared { gateway.shared with
        approvals := (gateway.shared.approvals.resolveApproval id decision gateway.shared.now).2 }
  | .reconciles claim =>
      if config.independent && claim ∈ gateway.shared.claims && !gateway.isReconciling then
        some (.quiet, gateway.startTask (.recovery { claim := claim }))
      else none
  | .continues index env =>
      if env.newId ∈ gateway.shared.minted then none
      else
        (gateway.tasks.lookup index).map fun task =>
          let turn := task.advance config gateway.shared env
          (turn.report, gateway.setTask index turn.shared turn.stage)
  | .cancels index =>
      ((gateway.tasks.lookup index).filter Task.isAwaiting).map fun task =>
        (.quiet, gateway.dropTask index task)
  | .ticks seconds => gateway.withShared { gateway.shared with now := gateway.shared.now + seconds }
  | .links link =>
      gateway.withShared { gateway.shared with
        link := link
        claims := link.claimed.toList ++ gateway.shared.claims }
  | .processEnds processId status =>
      gateway.withShared { gateway.shared with
        processes := gateway.shared.processes.recordEnd gateway.shared.runner processId
          (exitEnd status) }
  | .observesOutput processId cursor =>
      gateway.withShared { gateway.shared with
        processes := gateway.shared.processes.recordOutput gateway.shared.runner processId cursor }
  | .losesRunner =>
      gateway.withShared { gateway.shared with
        processes := gateway.shared.processes.recordRunnerLost gateway.shared.runner .runnerLost }
  | .releasesRecord processId nowMs =>
      gateway.withShared { gateway.shared with
        processes := gateway.shared.processes.releaseRecord processId nowMs }
  | .failNextFinish => gateway.withShared { gateway.shared with failNextFinish := true }
  | .reopens runner link =>
      some (.quiet, { gateway with
        shared := gateway.shared.opened config runner link
        tasks := ∅ })

end Gateway

structure Label where
  event : Event
  report : Report

/-- The runs of gateways of one configuration, one after the other, over one database. -/
def gatewaySystem (config : Config) : System Gateway Label where
  initial gateway := ∃ runner link,
    gateway = { shared := Shared.opened config { runner := runner, link := link } runner link }
  step before label after := before.step config label.event = some (label.report, after)

/-- The labels and the last state of a list of events, when each of them is possible. -/
def Gateway.replay (config : Config) (gateway : Gateway) (events : List Event) :
    Option (List Label × Gateway) :=
  Transition.replay (Gateway.step config) Label.mk gateway events

variable {trace : List Label}

theorem Gateway.run_of_replay (replayed : gateway.replay config events = some (trace, last)) :
    (gatewaySystem config).Run gateway trace last :=
  System.run_of_replay (fun stepped => by exact stepped) replayed

/-- Sections of a task in which nothing comes from outside. -/
def turns (task count : Nat) : List Event :=
  List.replicate count (.continues task {})

/-- The steps that a side condition admits. -/
def Gateway.stepWhere (config : Config) (admitted : Gateway → Event → Bool) (gateway : Gateway)
    (event : Event) : Option (Report × Gateway) :=
  if admitted gateway event then gateway.step config event else none

theorem Gateway.run_of_replayWhere {admitted : Gateway → Event → Bool}
    (replayed : Transition.replay (stepWhere config admitted) Label.mk gateway events =
      some (trace, last)) :
    ((gatewaySystem config).restrict fun gateway label => admitted gateway label.event = true).Run
      gateway trace last := by
  refine System.run_of_replay (fun {before event answer after} stepped => ?_) replayed
  unfold stepWhere at stepped
  split at stepped
  next holds => exact ⟨holds, stepped⟩
  · contradiction

/-- What happens to the shared state outside every task. -/
inductive OutsideStep (config : Config) (shared : Shared) : Shared → Prop
  | createApproval (approvalId : String) (params : ToolParams) : OutsideStep config shared
      { shared with
        approvals := (shared.approvals.createApproval approvalId params.workspaceId params.tool
          (config.fingerprint params) params.toJson).2 }
  | resolveApproval (id : String) (decision : ApprovalDecision) : OutsideStep config shared
      { shared with approvals := (shared.approvals.resolveApproval id decision shared.now).2 }
  | ticks (seconds : Nat) : OutsideStep config shared { shared with now := shared.now + seconds }
  | links (link : RunnerLink) : OutsideStep config shared
      { shared with link := link, claims := link.claimed.toList ++ shared.claims }
  | processEnds (processId : String) (status : Option RunnerProcessStatus) : OutsideStep config shared
      { shared with processes := shared.processes.recordEnd shared.runner processId (exitEnd status) }
  | observesOutput (processId : String) (cursor : Nat) : OutsideStep config shared
      { shared with processes := shared.processes.recordOutput shared.runner processId cursor }
  | losesRunner : OutsideStep config shared
      { shared with processes := shared.processes.recordRunnerLost shared.runner .runnerLost }
  | releasesRecord (processId : String) (nowMs : Nat) : OutsideStep config shared
      { shared with processes := shared.processes.releaseRecord processId nowMs }
  | failNextFinish : OutsideStep config shared { shared with failNextFinish := true }

inductive Starts (config : Config) (gateway : Gateway) : Task → Prop
  | applyPatch (params : ApplyPatchParams) : Starts config gateway (.patch { params := params })
  | execCommand (params : ExecCommandParams) : Starts config gateway (.exec { params := params })
  | operationResume (id : String) : Starts config gateway (.resume { approvalId := id })
  | reconciles (claim : RunnerClaim) (independent : config.independent = true)
      (claimed : claim ∈ gateway.shared.claims) (idle : gateway.isReconciling = false) :
      Starts config gateway (.recovery { claim := claim })

inductive GatewayStep (config : Config) (before : Gateway) : Event → Report → Gateway → Prop
  | started {event : Event} {task : Task} (starts : Starts config before task)
      (other : ∀ index env, event ≠ .continues index env) :
      GatewayStep config before event .quiet (before.startTask task)
  | outside {event : Event} {shared : Shared} (changed : OutsideStep config before.shared shared)
      (other : ∀ index env, event ≠ .continues index env) :
      GatewayStep config before event .quiet { before with shared := shared }
  | continued {index : Nat} {env : Environment} {task : Task} (fresh : env.newId ∉ before.shared.minted)
      (running : before.tasks.lookup index = some task) :
      GatewayStep config before (.continues index env) (task.advance config before.shared env).report
        (before.setTask index (task.advance config before.shared env).shared
          (task.advance config before.shared env).stage)
  | dropped {index : Nat} {task : Task} (running : before.tasks.lookup index = some task)
      (waits : task.isAwaiting = true) :
      GatewayStep config before (.cancels index) .quiet (before.dropTask index task)
  | reopened (runner : RunnerRef) (link : RunnerLink) :
      GatewayStep config before (.reopens runner link) .quiet
        { before with shared := before.shared.opened config runner link, tasks := ∅ }

theorem Gateway.step_cases (stepped : before.step config event = some (report, after)) :
    GatewayStep config before event report after := by
  cases event with
  | applyPatch params =>
      cases stepped
      exact .started (.applyPatch params) fun index env same => by contradiction
  | execCommand params =>
      cases stepped
      exact .started (.execCommand params) fun index env same => by contradiction
  | operationResume id =>
      cases stepped
      exact .started (.operationResume id) fun index env same => by contradiction
  | createApproval approvalId params =>
      cases stepped
      exact .outside (.createApproval approvalId params) fun index env same => by contradiction
  | resolveApproval id decision =>
      cases stepped
      exact .outside (.resolveApproval id decision) fun index env same => by contradiction
  | reconciles claim =>
      dsimp only [step] at stepped
      split at stepped
      next possible =>
        cases stepped
        simp only [Bool.and_eq_true, decide_eq_true_eq, Bool.not_eq_true'] at possible
        obtain ⟨⟨independent, claimed⟩, idle⟩ := possible
        exact .started (.reconciles claim independent claimed idle)
          fun index env same => by contradiction
      · contradiction
  | continues =>
      dsimp only [step] at stepped
      split at stepped
      · contradiction
      next fresh =>
        obtain ⟨task, running, same⟩ := Option.map_eq_some_iff.mp stepped
        cases same
        exact .continued fresh running
  | cancels =>
      obtain ⟨_, found, same⟩ := Option.map_eq_some_iff.mp stepped
      obtain ⟨running, waits⟩ := Option.filter_eq_some_iff.mp found
      cases same
      exact .dropped running waits
  | ticks seconds =>
      cases stepped
      exact .outside (.ticks seconds) fun index env same => by contradiction
  | links link =>
      cases stepped
      exact .outside (.links link) fun index env same => by contradiction
  | processEnds processId status =>
      cases stepped
      exact .outside (.processEnds processId status) fun index env same => by contradiction
  | observesOutput processId cursor =>
      cases stepped
      exact .outside (.observesOutput processId cursor) fun index env same => by contradiction
  | losesRunner =>
      cases stepped
      exact .outside .losesRunner fun index env same => by contradiction
  | releasesRecord processId nowMs =>
      cases stepped
      exact .outside (.releasesRecord processId nowMs) fun index env same => by contradiction
  | failNextFinish =>
      cases stepped
      exact .outside .failNextFinish fun index env same => by contradiction
  | reopens runner link =>
      cases stepped
      exact .reopened runner link

/-- Where a task that runs after a step comes from. -/
inductive TaskOrigin (config : Config) (before after : Gateway) (event : Event) (report : Report)
    (index : Nat) (task : Task) : Prop
  | started (starts : Starts config before task)
  | kept (running : before.tasks.lookup index = some task)
      (other : ∀ env, event ≠ .continues index env)
  | advanced (env : Environment) (old : Task) (continued : event = .continues index env)
      (running : before.tasks.lookup index = some old)
      (stage : (old.advance config before.shared env).stage = some task)
      (shared : after.shared = (old.advance config before.shared env).shared)
      (reported : report = (old.advance config before.shared env).report)

theorem Gateway.step_task {task : Task} (stepped : before.step config event = some (report, after))
    (running : after.tasks.lookup index = some task) :
    TaskOrigin config before after event report index task := by
  cases step_cases stepped with
  | started starts other =>
      by_cases same : index = before.nextTask
      · subst same
        rw [startTask, AList.lookup_insert] at running
        cases running
        exact .started starts
      · rw [startTask, AList.lookup_insert_ne same] at running
        exact .kept running (other index)
  | outside _ other => exact .kept running (other index)
  | @continued moved env old fresh runs =>
      by_cases same : index = moved
      · subst same
        rw [lookup_setTask] at running
        exact .advanced env old rfl runs running setTask_shared rfl
      · rw [lookup_setTask_of_ne same] at running
        refine .kept running fun env is => ?_
        cases is
        contradiction
  | @dropped moved old runs waits =>
      refine .kept ?_ fun env is => by contradiction
      unfold dropTask at running
      by_cases same : index = moved
      · subst same
        split at running <;>
        · cases lookup_setTask.symm.trans running
      · split at running <;> rwa [lookup_setTask_of_ne same] at running
  | reopened => contradiction

def sends (trace : List Label) : List Send :=
  trace.filterMap fun label => label.report.send?

/-- The operations and processes of which it is established that no Runner acted on them. -/
def disproved (trace : List Label) : List String :=
  trace.filterMap fun label => label.report.disproved?

/-- The results that operations got, in their order. -/
def finishes (trace : List Label) : List (String × ApplyPatchResult) :=
  trace.filterMap fun label => label.report.finished?

def lastResult (trace : List Label) (operationId : String) : Option ApplyPatchResult :=
  (finishes trace).reverse.lookup operationId

/-- The requests sent for an approval that were not established as never sent or never started. -/
def loose (trace : List Label) (id : String) : List Send :=
  (sends trace).filter fun send => send.approval = some id && send.request.id ∉ disproved trace

def patchSends (trace : List Label) : List String :=
  (sends trace).filterMap Send.patched?

section Snoc

variable {trace : List Label} {label : Label} {operationId id : String}

@[simp]
theorem sends_snoc : sends (trace ++ [label]) = sends trace ++ label.report.send?.toList := by
  simp only [sends, List.filterMap_append]
  cases send : label.report.send? <;> simp [send]

@[simp]
theorem disproved_snoc :
    disproved (trace ++ [label]) = disproved trace ++ label.report.disproved?.toList := by
  simp only [disproved, List.filterMap_append]
  cases gone : label.report.disproved? <;> simp [gone]

theorem disproved_snoc_of_mem (gone : id ∈ disproved trace) : id ∈ disproved (trace ++ [label]) := by
  simp [gone]

theorem lastResult_snoc (silent : label.report.finished? = none) :
    lastResult (trace ++ [label]) operationId = lastResult trace operationId := by
  simp [lastResult, finishes, silent]

theorem lastResult_snoc_finished {result : ApplyPatchResult}
    (finished : label.report.finished? = some (id, result)) :
    lastResult (trace ++ [label]) operationId =
      if operationId = id then some result else lastResult trace operationId := by
  simp only [lastResult, finishes, List.filterMap_append, List.reverse_append]
  by_cases same : operationId = id
  · simp [finished, same]
  · have apart : (operationId == id) = false := by simpa using same
    simp [finished, same, List.lookup_cons, apart]

end Snoc

end CodeSpace.Server
