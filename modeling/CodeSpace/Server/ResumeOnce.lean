import CodeSpace.Server.ResumeSteps

namespace CodeSpace.Server

open Store Transition

/-! An approval is resumed once: at most one request is sent for it that was not established as never
sent or never started. -/

variable {config : Config} {before after gateway : Gateway} {trace : List Label} {label : Label}
  {task : Task}

/-- A reconciliation that marks an approval in flight to give it back took up every execution that is
recorded for it by then. `settle` looks at the records before, in a section of its own. -/
def Gateway.settlesKnown (gateway : Gateway) : Event → Bool
  | .continues index _ =>
      match gateway.tasks.lookup index with
      | some (.recovery pass) =>
          match pass.stage with
          | .settleMarks id none _ => pass.covers gateway.shared id
          | _ => true
      | _ => true
  | _ => true

def SettlesKnown (gateway : Gateway) (label : Label) : Prop :=
  gateway.settlesKnown label.event = true

structure ResumesOnce (config : Config) (trace : List Label) (gateway : Gateway) : Prop where
  ledger : Ledger config trace gateway
  approvals : ApprovalsOnce config trace gateway.shared
  guarded : Guarded gateway
  tasks {index : Nat} {task : Task} (running : gateway.tasks.lookup index = some task) :
    task.Knows config trace gateway.shared

theorem Starts.knows {shared : Shared} (starts : Starts config gateway task) :
    task.Knows config trace shared := by
  cases starts with
  | applyPatch => exact ⟨rfl, nofun⟩
  | execCommand =>
      refine ⟨rfl, fun executes stage => ?_⟩
      cases executes
      contradiction
  | operationResume => exact ⟨trivial, nofun⟩
  | reconciles _ independent => exact ⟨⟨independent, nofun, nofun, nofun, rfl⟩, nofun⟩

namespace ResumesOnce

theorem tasks_step (holds : ResumesOnce config trace before) (known : SettlesKnown before label)
    (stepped : before.step config label.event = some (label.report, after)) {index : Nat}
    (running : after.tasks.lookup index = some task) :
    task.Knows config (trace ++ [label]) after.shared := by
  obtain ⟨_, move, touches⟩ := Gateway.step_move stepped fun _ _ => holds.tasks
  cases Gateway.step_task stepped running with
  | started starts => exact starts.knows
  | kept ran other =>
      refine (holds.tasks ran).keep move fun id guards isTouched => ?_
      obtain ⟨_, env, _, event, moves, alsoGuards⟩ := touches id isTouched
      cases holds.guarded.single ran guards moves alsoGuards
      exact other env event
  | advanced _ old continued ran stage shared reported =>
      rw [shared] at move ⊢
      refine old.advance_knows (holds.tasks ran) holds.ledger holds.approvals ?_ move reported stage
      rintro pass id rest rfl current
      simpa [SettlesKnown, Gateway.settlesKnown, continued, ran, current] using known

theorem step (holds : ResumesOnce config trace before)
    (stepped : ((gatewaySystem config).restrict SettlesKnown).step before label after) :
    ResumesOnce config (trace ++ [label]) after := by
  obtain ⟨known, stepped⟩ := stepped
  obtain ⟨_, move, _⟩ := Gateway.step_move stepped fun _ _ => holds.tasks
  exact ⟨holds.ledger.step stepped, holds.approvals.step move, holds.guarded.step stepped,
    holds.tasks_step known stepped⟩

theorem initial (isInitial : (gatewaySystem config).initial gateway) : ResumesOnce config [] gateway where
  ledger := Ledger.initial isInitial
  approvals := by
    obtain ⟨runner, link, rfl⟩ := isInitial
    obtain ⟨approvals, _, processes, _⟩ :=
      Shared.opened_stored config { runner := runner, link := link } runner link
    constructor
    case arguments | resolved =>
      intro id row stored
      rw [approvals] at stored
      contradiction
    case spare => exact fun _ => rfl
    case once => exact fun _ => Nat.zero_le _
    case sentFor => nofun
    case records =>
      intro processId record stored
      rw [processes] at stored
      contradiction
  guarded := by
    obtain ⟨runner, link, rfl⟩ := isInitial
    exact ⟨nofun, nofun⟩
  tasks running := by
    obtain ⟨_, _, rfl⟩ := isInitial
    contradiction

theorem of_run (isInitial : (gatewaySystem config).initial before)
    (run : ((gatewaySystem config).restrict SettlesKnown).Run before trace after) :
    ResumesOnce config trace after :=
  run.records (ResumesOnce config) step (initial isInitial)

end ResumesOnce

/-- At most one request sent for an approval was not established as never sent or never started, and at
most one task holds the approval. -/
theorem approval_is_resumed_once (isInitial : (gatewaySystem config).initial before)
    (run : ((gatewaySystem config).restrict SettlesKnown).Run before trace after) (id : String) :
    (loose trace id).length ≤ 1 ∧
      ∀ index other task next, after.tasks.lookup index = some task → task.guarding = some id →
        after.tasks.lookup other = some next → next.guarding = some id → index = other := by
  have holds := ResumesOnce.of_run isInitial run
  exact ⟨holds.approvals.once id, fun index other task next running guards alsoRunning alsoGuards =>
    holds.guarded.single running guards alsoRunning alsoGuards⟩

def Gateway.stepKnown (config : Config) (gateway : Gateway) (event : Event) :
    Option (Report × Gateway) :=
  if gateway.settlesKnown event then gateway.step config event else none

theorem Gateway.run_of_replayKnown {events : List Event}
    (replayed : Transition.replay (stepKnown config) Label.mk before events = some (trace, after)) :
    ((gatewaySystem config).restrict SettlesKnown).Run before trace after :=
  Gateway.run_of_replayWhere replayed

/-- An execution is sent, the gateway crashes, and the Runner never received it: the approval is given
back, and a second execution is sent. -/
theorem interrupted_approval_is_resumed_again :
    let config : Config := { independent := true, hash := fun _ => "f", unreadableParams := fun _ => "" }
    let runner : RunnerRef := { bootId := none, pid := 1, startedAtMs := 0, nonce := "n" }
    let linked (epoch : Nat) : RunnerLink := .linked (some { epoch := epoch })
    let start : Gateway :=
      { shared := Shared.opened config { runner := runner, link := linked 1 } runner (linked 1) }
    let events : List Event :=
      [.createApproval "a" (.execCommand { workspaceId := "w", command := ["make"] }),
        .resolveApproval "a" .grant, .operationResume "a"] ++ turns 0 6 ++
      [.continues 0 { newId := "p1" }] ++ turns 0 4 ++
      [.reopens runner (linked 2), .reconciles { epoch := 2 }] ++ turns 1 3 ++
      [.continues 1 { answers := { recalled := .ok [("p1", .notReceived)] } }] ++ turns 1 10 ++
      [.operationResume "a"] ++ turns 2 6 ++ [.continues 2 { newId := "p2" }] ++ turns 2 4
    ∃ trace last, replay (Gateway.stepKnown config) Label.mk start events = some (trace, last) ∧
      (sends trace).length = 2 ∧ (loose trace "a").length = 1 ∧ (loose trace "a").length ≤ 1 := by
  intro config runner linked start events
  have counted : (replay (Gateway.stepKnown config) Label.mk start events).map (fun run =>
      ((sends run.1).length, (loose run.1 "a").length)) = some (2, 1) := by decide +kernel
  obtain ⟨⟨trace, last⟩, replayed, counts⟩ := Option.map_eq_some_iff.mp counted
  obtain ⟨sent, isLoose⟩ := Prod.mk.inj counts
  exact ⟨trace, last, replayed, sent, isLoose,
    (approval_is_resumed_once ⟨runner, linked 1, rfl⟩ (Gateway.run_of_replayKnown replayed) "a").1⟩

/-- A reconciliation has found the only execution of an approval not started and goes on to give the
approval back. Before it marks it in flight, the approval is resumed and its execution sent; the resume
is cancelled, the approval is given back all the same, and a third execution is sent. -/
theorem approval_is_resumed_twice :
    let config : Config := { independent := true, hash := fun _ => "f", unreadableParams := fun _ => "" }
    ∃ before trace after, (gatewaySystem config).initial before ∧
      (gatewaySystem config).Run before trace after ∧
      (loose trace "a").map (fun send => send.request.id) = ["p2", "p3"] := by
  intro config
  let runner : RunnerRef := { bootId := none, pid := 1, startedAtMs := 0, nonce := "n" }
  let linked (epoch : Nat) : RunnerLink := .linked (some { epoch := epoch })
  have replayed : (Gateway.replay config
      { shared := Shared.opened config { runner := runner, link := linked 1 } runner (linked 1) }
      ([.createApproval "a" (.execCommand { workspaceId := "w", command := ["make"] }),
        .resolveApproval "a" .grant, .operationResume "a"] ++ turns 0 6 ++
      [.continues 0 { newId := "p1" }] ++ turns 0 2 ++
      [.links (linked 2), .reconciles { epoch := 2 }] ++ turns 1 1 ++ turns 0 1 ++ turns 1 2 ++
      turns 0 1 ++ [.continues 0 { exec := .error (.execution
        { code := .staleController, message := "a later controller claimed the Runner" }) }] ++
      turns 0 6 ++ [.continues 1 { answers := { recalled := .ok [("p1", .notReceived)] } }] ++
      turns 1 3 ++ [.operationResume "a"] ++ turns 2 6 ++ [.continues 2 { newId := "p2" }] ++
      turns 2 4 ++ [.cancels 2] ++ turns 1 4 ++ [.operationResume "a"] ++ turns 3 6 ++
      [.continues 3 { newId := "p3" }] ++ turns 3 4)).map (fun run =>
        (loose run.1 "a").map fun send => send.request.id) = some ["p2", "p3"] := by
    decide +kernel
  obtain ⟨⟨trace, after⟩, same, isLoose⟩ := Option.map_eq_some_iff.mp replayed
  exact ⟨_, trace, after, ⟨runner, linked 1, rfl⟩, Gateway.run_of_replay same, isLoose⟩

end CodeSpace.Server
