import Mathlib.Data.Finset.Option
import CodeSpace.Runner.Independent

namespace CodeSpace.Runner

open Data

variable {runner before after : IndependentRunner} {id other index : Nat}
  {connection changed : Connection} {phase : Phase} {event : RunnerEvent} {notice : Notice}
  {op : RunnerOp} {sent : Option Nat} {storeId : String} {stage : Stage} {control next : Control}

namespace IndependentRunner

def phaseOf (runner : IndependentRunner) (id : Nat) : Option Phase :=
  (runner.connections[id]?).map Connection.phase

theorem phaseOf_congr (same : after.connections = before.connections) (id : Nat) :
    after.phaseOf id = before.phaseOf id := by
  rw [phaseOf, phaseOf, same]

theorem phaseOf_of_lookup (stored : runner.connections[id]? = some connection) :
    runner.phaseOf id = some connection.phase := by
  rw [phaseOf, stored, Option.map_some]

theorem phaseOf_setConnection (stored : runner.connections[id]? = some connection) (other : Nat) :
    (runner.setConnection id changed).phaseOf other =
      if other = id then some changed.phase else runner.phaseOf other := by
  obtain ⟨inside, _⟩ := List.getElem?_eq_some_iff.mp stored
  simp only [phaseOf, setConnection, List.getElem?_set]
  by_cases same : id = other
  · subst same
    simp [inside]
  · simp [same, Ne.symm same]

theorem phaseOf_setPhase (same : after.connections = before.connections)
    (present : before.phaseOf id = some phase) (next : Phase) (other : Nat) :
    (after.setPhase id next).phaseOf other = if other = id then some next else before.phaseOf other := by
  obtain ⟨connection, stored, _⟩ := Option.map_eq_some_iff.mp present
  have found : after.connections[id]? = some connection := same ▸ stored
  simp only [setPhase, found]
  rw [phaseOf_setConnection found, phaseOf_congr same]

@[simp]
theorem setPhase_control : (runner.setPhase id phase).control = runner.control := by
  simp only [setPhase]
  split <;> rfl

@[simp]
theorem setPhase_jobs : (runner.setPhase id phase).jobs = runner.jobs := by
  simp only [setPhase]
  split <;> rfl

@[simp]
theorem setPhase_nextJob : (runner.setPhase id phase).nextJob = runner.nextJob := by
  simp only [setPhase]
  split <;> rfl

@[simp]
theorem setPhase_processes : (runner.setPhase id phase).processes = runner.processes := by
  simp only [setPhase]
  split <;> rfl

@[simp]
theorem noteReceived_control : (runner.noteReceived op).control = runner.control := by
  simp only [noteReceived]
  split <;> rfl

@[simp]
theorem noteReceived_jobs : (runner.noteReceived op).jobs = runner.jobs := by
  simp only [noteReceived]
  split <;> rfl

@[simp]
theorem noteReceived_nextJob : (runner.noteReceived op).nextJob = runner.nextJob := by
  simp only [noteReceived]
  split <;> rfl

@[simp]
theorem noteReceived_connections : (runner.noteReceived op).connections = runner.connections := by
  simp only [noteReceived]
  split <;> rfl

end IndependentRunner

/-- What control depends on: the control state, the requests in progress, and where each
connection's task is. -/
structure ControlView where
  control : Control
  jobs : Assoc Nat Job
  nextJob : Nat
  phaseOf : Nat → Option Phase

@[simp]
def IndependentRunner.view (runner : IndependentRunner) : ControlView :=
  ⟨runner.control, runner.jobs, runner.nextJob, runner.phaseOf⟩

section Moves

variable {before after : ControlView} {found : Job} {jobs : Assoc Nat Job}

/-- The connection reads no further request. -/
def Phase.hasLeft : Phase → Bool
  | .leaving _ | .draining _ | .closed => true
  | _ => false

/-- A connection that left goes on leaving: it does not come to see a stop. -/
def Phase.LeavesTo (phase next : Phase) : Prop :=
  phase.hasLeft = true → next.hasLeft = true ∧ (next = .leaving .stop → phase = .leaving .stop)

/-- The phase changes of a step that neither admits nor answers nor claims. -/
structure PhasesKept (before after : ControlView) : Prop where
  answering {id job : Nat} (busy : before.phaseOf id = some (.answering job)) :
    after.phaseOf id = some (.answering job)
  claiming {id : Nat} {storeId : String} (waits : after.phaseOf id = some (.claiming storeId)) :
    before.phaseOf id = some (.claiming storeId)
  present {id : Nat} {phase : Phase} (present : before.phaseOf id = some phase) :
    ∃ next, after.phaseOf id = some next ∧ phase.LeavesTo next

theorem PhasesKept.of_eq (same : ∀ id, after.phaseOf id = before.phaseOf id) :
    PhasesKept before after where
  answering busy := (same _).trans busy
  claiming waits := (same _).symm.trans waits
  present {_ phase} present := ⟨phase, (same _).trans present, fun left => ⟨left, id⟩⟩

/-- Whether a connection may move on from the phase by itself. -/
def Phase.movesTo : Phase → Phase → Bool
  | .answering _, _ | .draining _, _ | .closed, _ => false
  | .leaving _, .draining _ => true
  | .leaving _, _ => false
  | _, _ => true

theorem Phase.LeavesTo.of_movesTo {old : Phase} (moves : old.movesTo phase = true) :
    old.LeavesTo phase := by
  intro left
  cases old with
  | leaving =>
      cases phase with
      | draining => exact ⟨rfl, nofun⟩
      | _ => contradiction
  | _ => contradiction

theorem PhasesKept.of_move (phases : ∀ other, after.phaseOf other =
      if other = id then some phase else before.phaseOf other)
    (moves : ∀ old, before.phaseOf id = some old → old.movesTo phase = true)
    (free : ∀ storeId, phase ≠ .claiming storeId) : PhasesKept before after where
  answering {other job} busy := by
    rw [phases, if_neg]
    · exact busy
    · intro same
      cases moves _ (same ▸ busy)
  present {other old} present := by
    rw [phases]
    split
    next same => exact ⟨phase, rfl, .of_movesTo (moves old (same ▸ present))⟩
    · exact ⟨old, present, fun left => ⟨left, fun same => same⟩⟩
  claiming {other storeId} waits := by
    rw [phases] at waits
    split at waits
    · exact absurd (Option.some.inj waits) (free storeId)
    · exact waits

/-- A notice that neither accepts a Claim nor admits a request. -/
def Notice.silent : Notice → Bool
  | .claimed _ _ _ | .admitted _ _ _ _ => false
  | _ => true

/-- What one step does to control, requests and phases. -/
inductive Move (before : ControlView) : Notice → ControlView → Prop
  | kept {notice : Notice} {after : ControlView} (silent : notice.silent = true)
      (control : after.control = before.control) (jobs : after.jobs = before.jobs)
      (nextJob : after.nextJob = before.nextJob) (phases : PhasesKept before after) :
      Move before notice after
  | stopAdmitted {after : ControlView} {controller : Controller} {sent : Option Nat}
      (controls : before.control.controller = some controller)
      (current : sent = some controller.epoch) (control : after.control = before.control)
      (jobs : after.jobs = before.jobs) (nextJob : after.nextJob = before.nextJob)
      (phases : PhasesKept before after) :
      Move before (.admitted controller.connection sent controller.epoch .stop) after
  | claimBegun {after : ControlView} {id : Nat} {storeId : String}
      (sameStore : ∀ known, before.control.storeId = some known → known = storeId)
      (free : before.control.claiming = none) (reading : before.phaseOf id = some .reading)
      (control : after.control = { before.control with claiming := some id })
      (jobs : after.jobs = before.jobs) (nextJob : after.nextJob = before.nextJob)
      (phases : ∀ other, after.phaseOf other =
        if other = id then some (.claiming storeId) else before.phaseOf other) :
      Move before .quiet after
  | claimed {after : ControlView} {id : Nat} {storeId : String}
      (waited : before.phaseOf id = some (.claiming storeId))
      (vacant : before.control.controller = none)
      (control : after.control = { before.control with
        claiming := none
        epoch := before.control.epoch + 1
        controller := some ⟨id, before.control.epoch + 1, before.control.startedIn⟩
        storeId := before.control.storeId.or (some storeId) })
      (jobs : after.jobs = before.jobs) (nextJob : after.nextJob = before.nextJob)
      (phases : ∀ other, after.phaseOf other =
        if other = id then some .replying else before.phaseOf other) :
      Move before (.claimed id storeId ⟨before.control.epoch + 1, before.control.startedIn ≠ ∅,
        before.control.startedIn⟩) after
  | claimEnded {after : ControlView} {id : Nat} {storeId : String} {notice : Notice}
      (silent : notice.silent = true) (waited : before.phaseOf id = some (.claiming storeId))
      (control : after.control = { before.control with claiming := none })
      (jobs : after.jobs = before.jobs) (nextJob : after.nextJob = before.nextJob)
      (phases : ∀ other, after.phaseOf other =
        if other = id then some .replying else before.phaseOf other) :
      Move before notice after
  | admitted {after : ControlView} {controller : Controller} {sent : Option Nat}
      {op : RunnerOp} (controls : before.control.controller = some controller)
      (current : fenced op = true → sent = some controller.epoch)
      (unbarred : ∀ workspaceId, startsWork op = some workspaceId → workspaceId ∉ controller.barrier)
      (reading : before.phaseOf controller.connection = some .reading)
      (control : after.control = { before.control with
        startedIn := before.control.startedIn ∪ (startsWork op).toFinset })
      (jobs : after.jobs = before.jobs.insert before.nextJob
        ⟨controller.connection, sent, controller.epoch, op, answeredBeside op, .started⟩)
      (nextJob : after.nextJob = before.nextJob + 1)
      (phases : ∀ other, after.phaseOf other =
        if other = controller.connection ∧ answeredBeside op = false then
          some (.answering before.nextJob)
        else before.phaseOf other) :
      Move before (.admitted controller.connection sent controller.epoch op) after
  | restaged {after : ControlView} {notice : Notice} {index : Nat} {job : Job} {stage : Stage}
      (silent : notice.silent = true) (stored : before.jobs.lookup index = some job)
      (control : after.control = before.control)
      (jobs : after.jobs = before.jobs.insert index { job with stage := stage })
      (nextJob : after.nextJob = before.nextJob)
      (phases : ∀ other, after.phaseOf other = before.phaseOf other)
      (handedOver : job.stage = .spawned → ∃ workspaceId processId,
        IndependentRunner.spawnedProcess job.op = some (workspaceId, processId) ∧
        notice = .filled processId) : Move before notice after
  | answered {after : ControlView} {notice : Notice} {index : Nat} {job : Job}
      (silent : notice.silent = true) (stored : before.jobs.lookup index = some job)
      (control : after.control = before.control ∨ ∃ workspaceIds, job.op = .reconciled workspaceIds ∧
        after.control = before.control.reconciled job.connection workspaceIds)
      (jobs : after.jobs = before.jobs.erase index) (nextJob : after.nextJob = before.nextJob)
      (phases : ∀ other, after.phaseOf other = if other = job.connection ∧ job.beside = false then
          (before.phaseOf other).map fun _ => .replying
        else before.phaseOf other)
      (settled : job.stage ≠ .spawned) : Move before notice after
  | released {after : ControlView} {id : Nat} {ending : Ending}
      (drained : before.phaseOf id = some (.draining ending))
      (joined : ∀ {index job}, before.jobs.lookup index = some job → job.connection = id →
        job.beside = false)
      (control : after.control = (before.control.release id).2)
      (jobs : after.jobs = before.jobs) (nextJob : after.nextJob = before.nextJob)
      (phases : ∀ other, after.phaseOf other =
        if other = id then some .closed else before.phaseOf other) : Move before .quiet after

theorem lookup_restaged {job : Job} (stored : jobs.lookup index = some job)
    (running : (jobs.insert index { job with stage := stage }).lookup other = some found) :
    ∃ old, jobs.lookup other = some old ∧ found = { old with stage := found.stage } := by
  by_cases same : other = index
  · rw [same, AList.lookup_insert] at running
    cases running
    exact ⟨job, same ▸ stored, rfl⟩
  · rw [AList.lookup_insert_ne same] at running
    exact ⟨found, running, rfl⟩

theorem lookup_erased (running : (jobs.erase index).lookup other = some found) :
    other ≠ index ∧ jobs.lookup other = some found := by
  by_cases same : other = index
  · rw [same, AList.lookup_erase] at running
    contradiction
  · rw [AList.lookup_erase_ne same] at running
    exact ⟨same, running⟩

theorem lookup_added {job : Job} (running : (jobs.insert index job).lookup other = some found) :
    (other = index ∧ found = job) ∨ jobs.lookup other = some found := by
  by_cases same : other = index
  · rw [same, AList.lookup_insert] at running
    exact .inl ⟨same, (Option.some.inj running).symm⟩
  · rw [AList.lookup_insert_ne same] at running
    exact .inr running

theorem Move.job {job : Job} (move : Move before notice after)
    (running : after.jobs.lookup index = some job) :
    (∃ old, before.jobs.lookup index = some old ∧ job = { old with stage := job.stage }) ∨
      notice = .admitted job.connection job.sent job.epoch job.op ∧
        job.beside = answeredBeside job.op := by
  cases move with
  | kept _ _ jobs | stopAdmitted _ _ _ jobs | claimBegun _ _ _ _ jobs | claimed _ _ _ jobs
  | claimEnded _ _ _ jobs | released _ _ _ jobs =>
      rw [jobs] at running
      exact .inl ⟨job, running, rfl⟩
  | admitted _ _ _ _ _ jobs =>
      rw [jobs] at running
      rcases lookup_added running with ⟨_, rfl⟩ | old
      · exact .inr ⟨rfl, rfl⟩
      · exact .inl ⟨job, old, rfl⟩
  | restaged _ stored _ jobs =>
      rw [jobs] at running
      exact .inl (lookup_restaged stored running)
  | answered _ _ _ jobs =>
      rw [jobs] at running
      exact .inl ⟨job, (lookup_erased running).2, rfl⟩

end Moves

theorem Control.admitRequest_ok (admitted : control.admitRequest id sent op = .ok next) :
    ∃ controller, control.controller = some controller ∧ controller.connection = id ∧
      (fenced op = true → sent = some controller.epoch) ∧
      (∀ workspaceId, startsWork op = some workspaceId → workspaceId ∉ controller.barrier) ∧
      next = { control with startedIn := control.startedIn ∪ (startsWork op).toFinset } := by
  unfold Control.admitRequest at admitted
  split at admitted
  · contradiction
  next current found =>
    obtain ⟨controls, own⟩ := Option.filter_eq_some_iff.mp found
    split at admitted
    · contradiction
    next inEpoch =>
      have matching : fenced op = true → sent = some current.epoch := by
        intro isFenced
        simpa [isFenced] using inEpoch
      refine ⟨current, controls, by simpa using own, matching, ?_⟩
      split at admitted
      next nothing =>
        cases admitted
        refine ⟨fun workspaceId starts => ?_, ?_⟩
        · cases nothing.symm.trans starts
        · simp [nothing]
      next starts =>
        split at admitted
        · contradiction
        next unbarred =>
          cases admitted
          refine ⟨fun other same => ?_, ?_⟩
          · cases starts.symm.trans same
            exact unbarred
          · rw [starts, Option.toFinset_some, Finset.union_comm, ← Finset.insert_eq]

theorem Control.beginClaim_ok {ended : Nat → Bool}
    (begun : control.beginClaim ended id storeId = .ok next) :
    (∀ known, control.storeId = some known → known = storeId) ∧ control.claiming = none ∧
      next = { control with claiming := some id } := by
  unfold Control.beginClaim at begun
  split at begun
  · contradiction
  next agreeing =>
    dsimp only at begun
    split at begun
    · contradiction
    · split at begun
      · contradiction
      next free =>
        cases begun
        refine ⟨fun known stored => ?_, by simpa using free, rfl⟩
        simpa [stored, Option.filter] using agreeing

namespace IndependentRunner

/-! One lemma for each function of the connection's task. The connection is in the named phase. -/

variable {uid : Except String Nat}

section

variable (reading : before.phaseOf id = some .reading)
include reading

theorem claim_move
    (claimed : before.claim id uid storeId = (notice, after)) : Move before.view notice after.view := by
  unfold claim at claimed
  have moves : ∀ old, before.phaseOf id = some old → old.movesTo .replying = true := by
    simp [reading, Phase.movesTo]
  split at claimed
  · cases claimed
    exact .kept rfl (by simp) (by simp) (by simp)
      (.of_move (phaseOf_setPhase (by rfl) reading _) moves (by simp))
  · split at claimed
    · cases claimed
      exact .kept rfl (by simp) (by simp) (by simp)
        (.of_move (phaseOf_setPhase (by rfl) reading _) moves (by simp))
    next begun =>
      cases claimed
      obtain ⟨sameStore, free, rfl⟩ := Control.beginClaim_ok begun
      exact .claimBegun sameStore free reading (by simp) (by simp) (by simp)
        (phaseOf_setPhase (by rfl) reading _)

theorem request_move
    (requested : before.request id sent op = (notice, after)) : Move before.view notice after.view := by
  unfold request at requested
  split at requested
  · cases requested
    exact .kept rfl (by simp) (by simp) (by simp)
      (.of_move (phaseOf_setPhase noteReceived_connections reading _)
        (by simp [reading, Phase.movesTo]) (by simp))
  next accepted =>
    obtain ⟨controller, controls, rfl, current, unbarred, rfl⟩ := Control.admitRequest_ok accepted
    have epoch : before.controllerEpoch = controller.epoch := by simp [controllerEpoch, controls]
    simp only [newJob, epoch] at requested
    obtain ⟨rfl, rfl⟩ := Prod.mk.inj requested
    refine .admitted controls current unbarred reading ?_ ?_ ?_ fun other => ?_
    · split <;> simp
    · split <;> simp
    · split <;> simp
    · split
      next isBeside =>
        rw [if_neg (by simp [isBeside])]
        rfl
      next inTurn =>
        simp only [Bool.not_eq_true] at inTurn
        simp only [inTurn, and_true]
        exact phaseOf_setPhase (by rfl) reading _ other

theorem setPhase_move (silent : notice.silent = true) (moves : Phase.reading.movesTo phase = true)
    (free : ∀ storeId, phase ≠ .claiming storeId) : Move before.view notice (before.setPhase id phase).view :=
  .kept silent setPhase_control setPhase_jobs setPhase_nextJob
    (.of_move (phaseOf_setPhase (by rfl) reading _) (by simpa [reading] using moves) free)

theorem handle_move {frame : Frame}
    (handled : before.handle id uid frame = (notice, after)) : Move before.view notice after.view := by
  unfold handle at handled
  repeat' split at handled
  any_goals
    cases handled
    exact setPhase_move reading rfl rfl (by simp)
  next accepted =>
    obtain ⟨controller, controls, rfl, current, _⟩ := Control.admitRequest_ok accepted
    have epoch : before.controllerEpoch = controller.epoch := by simp [controllerEpoch, controls]
    rw [epoch] at handled
    cases handled
    exact .stopAdmitted controls (current rfl) (by simp) (by simp) (by simp)
      (.of_move (phaseOf_setPhase (by rfl) reading _) (by simp [reading, Phase.movesTo]) (by simp))
  · exact claim_move reading handled
  · exact request_move reading handled

end

theorem pollClaim_move {expired : Bool}
    (polled : before.pollClaim id expired = some (notice, after)) : Move before.view notice after.view := by
  unfold pollClaim at polled
  split at polled
  next stored =>
    split at polled
    next storeId isClaiming =>
      have waited : before.phaseOf id = some (.claiming storeId) := by
        rw [phaseOf_of_lookup stored, isClaiming]
      cases controls : before.control.controller with
      | none =>
          simp only [Control.pollClaim, controls] at polled
          cases polled
          exact .claimed waited controls (by simp) (by simp) (by simp) (phaseOf_setPhase (by rfl) waited _)
      | some =>
          simp only [Control.pollClaim, controls] at polled
          split_ifs at polled <;> cases polled
          all_goals first
            | exact .kept rfl rfl rfl rfl (.of_eq fun _ => rfl)
            | exact .claimEnded rfl waited (by simp [controls]) (by simp) (by simp)
                (phaseOf_setPhase (by rfl) waited _)
    · contradiction
  · contradiction

theorem receive_move (received : before.receive id = some (notice, after)) :
    Move before.view notice after.view := by
  unfold receive at received
  split at received
  next connection stored =>
    split at received
    next isReading =>
      have reading : before.phaseOf id = some .reading := by rw [phaseOf_of_lookup stored, isReading]
      split at received
      · split at received
        · contradiction
        · cases received
          exact setPhase_move reading rfl rfl (by simp)
      next rest _ =>
        have handled := Option.some.inj received
        have same : (before.setConnection id { connection with frames := rest }).view = before.view := by
          simp only [view, ControlView.mk.injEq]
          refine ⟨rfl, rfl, rfl, funext fun other => ?_⟩
          rw [phaseOf_setConnection stored]
          split
          next named => rw [named, phaseOf_of_lookup stored]
          · rfl
        rw [← same]
        refine handle_move ?_ handled
        rw [phaseOf_setConnection stored, if_pos rfl, ← isReading]
    · contradiction
  · contradiction

/-! Steps of the other tasks. -/

theorem setStage_move {job : Job} (processes : Processes) (errands : List Errand)
    (stored : before.jobs.lookup index = some job) (silent : notice.silent = true)
    (handedOver : job.stage = .spawned → ∃ workspaceId processId,
      spawnedProcess job.op = some (workspaceId, processId) ∧ notice = .filled processId) :
    Move before.view notice
      ({ before with processes, errands }.setStage index job stage).view :=
  .restaged silent stored rfl rfl rfl (fun _ => rfl) handedOver

theorem reserve_move (reserved : before.reserve index = some after) :
    Move before.view .quiet after.view := by
  unfold reserve at reserved
  split at reserved
  next stored =>
    split at reserved
    · split at reserved
      next isStarted =>
        split at reserved
        · cases reserved
          exact setStage_move _ before.errands stored rfl (by simp [isStarted])
        · cases reserved
          exact setStage_move before.processes before.errands stored rfl (by simp [isStarted])
      · contradiction
    · contradiction
  · contradiction

theorem spawn_move {created : Bool} (spawned : before.spawn index created = some (notice, after)) :
    Move before.view notice after.view := by
  unfold spawn at spawned
  split at spawned
  next stored =>
    split at spawned
    · split at spawned
      next isReserved =>
        split at spawned
        · cases spawned
          exact setStage_move before.processes before.errands stored rfl (by simp [isReserved])
        · cases spawned
          exact setStage_move _ before.errands stored rfl (by simp [isReserved])
      · contradiction
    · contradiction
  · contradiction

theorem fill_move (filled : before.fill index = some (notice, after)) :
    Move before.view notice after.view := by
  unfold fill at filled
  split at filled
  next stored =>
    split at filled
    next workspaceId processId starts =>
      split at filled
      · cases filled
        exact setStage_move _ _ stored rfl fun _ => ⟨workspaceId, processId, starts, rfl⟩
      · contradiction
    · contradiction
  · contradiction

theorem settle_control (runner : IndependentRunner) (job : Job) :
    (runner.settle job).1.silent = true ∧ (runner.settle job).2.jobs = runner.jobs ∧
      (runner.settle job).2.nextJob = runner.nextJob ∧
      (runner.settle job).2.connections = runner.connections ∧
      ((runner.settle job).2.control = runner.control ∨
        ∃ workspaceIds, job.op = .reconciled workspaceIds ∧
          (runner.settle job).2.control = runner.control.reconciled job.connection workspaceIds) := by
  unfold settle
  split
  · exact ⟨rfl, rfl, rfl, rfl, .inl rfl⟩
  next workspaceIds named => exact ⟨rfl, rfl, rfl, rfl, .inr ⟨workspaceIds, named, rfl⟩⟩
  · exact ⟨rfl, rfl, rfl, rfl, .inl rfl⟩
  · split
    · exact ⟨rfl, rfl, rfl, rfl, .inl rfl⟩
    · exact ⟨rfl, rfl, rfl, rfl, .inl rfl⟩

theorem phaseOf_setPhase_map (next : Phase) (other : Nat) : (runner.setPhase id next).phaseOf other =
      if other = id then (runner.phaseOf other).map fun _ => next else runner.phaseOf other := by
  cases present : runner.phaseOf id with
  | none =>
      have absent : runner.connections[id]? = none := Option.map_eq_none_iff.mp present
      simp only [setPhase, absent]
      split
      next named => rw [named, present, Option.map_none]
      · rfl
  | some =>
      rw [phaseOf_setPhase rfl present]
      split
      next named => rw [named, present, Option.map_some]
      · rfl

theorem answer_move (answered : before.answer index = some (notice, after)) :
    Move before.view notice after.view := by
  unfold answer at answered
  split at answered
  next job stored =>
    split at answered
    · contradiction
    next settled =>
      obtain ⟨silent, jobs, nextJob, connections, control⟩ := settle_control before job
      obtain ⟨rfl, rfl⟩ := Prod.mk.inj (Option.some.inj answered)
      refine .answered silent stored ?_ ?_ ?_ (fun other => ?_) settled
      · split
        · exact control
        · simp only [view, setPhase_control]
          exact control
      · split <;> simp [jobs]
      · split
        · exact nextJob
        · simp [nextJob]
      · split
        next isBeside =>
          rw [if_neg (by simp [isBeside])]
          exact phaseOf_congr connections other
        next inTurn =>
          have same : ({ (before.settle job).2 with
              jobs := (before.settle job).2.jobs.erase index } : IndependentRunner).phaseOf other =
              before.phaseOf other := phaseOf_congr connections other
          dsimp only [view]
          rw [phaseOf_setPhase_map, same]
          simp [inTurn]
  · contradiction

theorem drain_move (drained : before.drain id = some after) : Move before.view .quiet after.view := by
  unfold drain at drained
  split at drained
  next stored =>
    split at drained
    next ending leaving =>
      cases drained
      have present : before.phaseOf id = some (.leaving ending) := by
        rw [phaseOf_of_lookup stored, leaving]
      exact .kept rfl rfl rfl rfl
        (.of_move (phaseOf_setConnection stored) (by simp [present, Phase.movesTo]) (by simp))
    · contradiction
  · contradiction

theorem release_move (released : before.release id = some after) :
    Move before.view .quiet after.view := by
  unfold release at released
  split at released
  next stored =>
    split at released
    next ending isDraining =>
      split at released
      next joined =>
        cases released
        have drained : before.phaseOf id = some (.draining ending) := by
          rw [phaseOf_of_lookup stored, isDraining]
        refine .released drained (fun {index job} running own => ?_) (by simp) (by simp) (by simp)
          (phaseOf_setPhase (by rfl) drained _)
        refine Bool.eq_false_iff.mpr fun isBeside => ?_
        have inside : index ∈ before.jobs.keysWhere (fun job => job.beside && job.connection = id) :=
          Assoc.mem_keysWhere.mpr ⟨job, running, by simp [isBeside, own]⟩
        rw [joined] at inside
        contradiction
      · contradiction
    · contradiction
  · contradiction

theorem setFlags_move (stored : before.connections[id]? = some connection)
    (samePhase : changed.phase = connection.phase) :
    Move before.view .quiet (before.setConnection id changed).view := by
  refine .kept rfl rfl rfl rfl (.of_eq fun other => ?_)
  simp only [view, phaseOf_setConnection stored, samePhase]
  split
  next named => rw [named, phaseOf_of_lookup stored]
  · rfl

theorem accept_move (accepted : before.accept uid = some after) : Move before.view .quiet after.view := by
  obtain ⟨_, same⟩ := Option.ite_none_right_eq_some.mp accepted
  cases same
  have fresh : before.phaseOf before.connections.length = none := by simp [phaseOf]
  have phases : ∀ other, IndependentRunner.phaseOf
        { before with connections := before.connections ++ [{ uid := uid }] } other =
      if other = before.connections.length then some .reading else before.phaseOf other := by
    intro other
    rcases Nat.lt_trichotomy other before.connections.length with below | rfl | above
    · simp [phaseOf, List.getElem?_append_left below, Nat.ne_of_lt below]
    · simp [phaseOf]
    · have outside : (before.connections ++ [({ uid := uid } : Connection)])[other]? = none :=
        List.getElem?_eq_none (by rw [List.length_append, List.length_singleton]; exact above)
      have absent : before.connections[other]? = none := List.getElem?_eq_none (Nat.le_of_lt above)
      simp [phaseOf, outside, absent, Nat.ne_of_gt above]
  exact .kept rfl rfl rfl rfl (.of_move phases (by simp [fresh]) (by simp))

/-! Steps that act for a request. -/

/-- The step acts for the request, and changes nothing but the errands. -/
structure Acts (before : IndependentRunner) (job : Job) (act : Act) (after : IndependentRunner) :
    Prop where
  same : after = { before with errands := after.errands }
  errands {errand : Errand} (member : errand ∈ after.errands) :
    errand ∈ before.errands ∨ ∃ processId, act = .kills processId ∧ errand = .killHook job processId

section

variable {processId : String} {errand : Errand}

theorem requestKill_acts {job : Job} (killed : before.requestKill job processId = some (notice, after)) :
    notice = .acts job (.kills processId) ∧ Acts before job (.kills processId) after := by
  unfold requestKill at killed
  split at killed
  · split at killed
    · contradiction
    · cases killed
      refine ⟨rfl, ?_⟩
      split
      · refine ⟨rfl, fun member => ?_⟩
        rcases List.mem_append.mp member with old | new
        · exact .inl old
        · exact .inr ⟨processId, rfl, List.mem_singleton.mp new⟩
      · exact ⟨rfl, .inl⟩
  · contradiction

theorem kill_acts (killed : before.kill index processId = some (notice, after)) :
    ∃ job, before.jobs.lookup index = some job ∧ notice = .acts job (.kills processId) ∧
      Acts before job (.kills processId) after := by
  unfold kill at killed
  split at killed
  next job stored =>
    split at killed
    · exact ⟨job, stored, requestKill_acts killed⟩
    · contradiction
  · contradiction

theorem errandKill_acts (killed : before.errandKill errand processId = some (notice, after)) :
    errand ∈ before.errands ∧ before.mayKill processId errand = true ∧
      notice = .acts errand.job (.kills processId) ∧
      Acts before errand.job (.kills processId) after := by
  obtain ⟨⟨member, may⟩, killed⟩ := Option.ite_none_right_eq_some.mp killed
  exact ⟨member, may, requestKill_acts killed⟩

theorem finishErrand_acts (finished : before.finishErrand errand = some (notice, after)) :
    errand ∈ before.errands ∧ ∃ act, notice = .acts errand.job act ∧ Acts before errand.job act after ∧
      match errand with
      | .stop _ => act = .answersStop ∧ before.allClosed = true
      | .deadline _ _ => False
      | .settlement _ processId => act = .abandons processId
      | .killHook _ processId => act = .endsScope processId := by
  obtain ⟨member, finished⟩ := Option.ite_none_right_eq_some.mp finished
  have rest (act : Act) :
      Acts before errand.job act { before with errands := before.errands.erase errand } :=
    ⟨rfl, fun member => .inl (List.mem_of_mem_erase member)⟩
  refine ⟨member, ?_⟩
  cases errand with
  | stop =>
      obtain ⟨closed, same⟩ := Option.ite_none_right_eq_some.mp finished
      cases same
      exact ⟨_, rfl, rest _, rfl, closed⟩
  | deadline => contradiction
  | settlement => cases finished; exact ⟨_, rfl, rest _, rfl⟩
  | killHook => cases finished; exact ⟨_, rfl, rest _, rfl⟩

theorem Acts.move {job : Job} {act : Act} (acts : Acts before job act after) :
    Move before.view (.acts job act) after.view := by
  rw [acts.same]
  exact .kept rfl rfl rfl rfl (.of_eq fun _ => rfl)

end

theorem step_move (stepped : before.step event = some (notice, after)) :
    Move before.view notice after.view := by
  cases event with
  | accepts =>
      obtain ⟨next, accepted, same⟩ := Option.map_eq_some_iff.mp stepped
      cases same
      exact accept_move accepted
  | stopsServing | detaches =>
      obtain ⟨next, moved, same⟩ := Option.map_eq_some_iff.mp stepped
      cases same
      simp only [stopServing, detach] at moved
      repeat' split at moved
      all_goals cases moved
      all_goals exact .kept rfl rfl rfl rfl (.of_eq fun _ => rfl)
  | kills =>
      obtain ⟨_, _, rfl, acts⟩ := kill_acts stepped
      exact acts.move
  | errandKills =>
      obtain ⟨_, _, rfl, acts⟩ := errandKill_acts stepped
      exact acts.move
  | finishesErrand =>
      obtain ⟨_, _, rfl, acts, _⟩ := finishErrand_acts stepped
      exact acts.move
  | readsAhead | streamEnds =>
      obtain ⟨next, moved, same⟩ := Option.map_eq_some_iff.mp stepped
      cases same
      simp only [readFrame, endStream] at moved
      split at moved
      next stored =>
        split at moved
        · cases moved
          exact setFlags_move stored rfl
        · contradiction
      · contradiction
  | stopRequested | finishes | evicts =>
      cases stepped
      exact .kept rfl rfl rfl rfl (.of_eq fun _ => rfl)
  | seesStop id =>
      obtain ⟨next, seen, same⟩ := Option.map_eq_some_iff.mp stepped
      cases same
      unfold seeStop at seen
      split at seen
      next stored =>
        split at seen
        next stopping =>
          cases seen
          have reading : before.phaseOf id = some .reading := by
            rw [phaseOf_of_lookup stored, stopping.2]
          exact setPhase_move reading rfl rfl (by simp)
        · contradiction
      · contradiction
  | receives => exact receive_move stepped
  | pollsClaim => exact pollClaim_move stepped
  | replies id written =>
      obtain ⟨next, replied, same⟩ := Option.map_eq_some_iff.mp stepped
      cases same
      unfold reply at replied
      split at replied
      next stored =>
        split at replied
        next isReplying =>
          cases replied
          have present : before.phaseOf id = some .replying := by
            rw [phaseOf_of_lookup stored, isReplying]
          refine .kept rfl (by simp) (by simp) (by simp)
            (.of_move (phaseOf_setPhase rfl present _) (by simp [present, Phase.movesTo]) fun storeId => ?_)
          cases written <;> simp
        · contradiction
      · contradiction
  | reserves =>
      obtain ⟨next, reserved, same⟩ := Option.map_eq_some_iff.mp stepped
      cases same
      exact reserve_move reserved
  | spawns => exact spawn_move stepped
  | fills => exact fill_move stepped
  | answers => exact answer_move stepped
  | drains =>
      obtain ⟨next, drained, same⟩ := Option.map_eq_some_iff.mp stepped
      cases same
      exact drain_move drained
  | releases =>
      obtain ⟨_, released, same⟩ := Option.map_eq_some_iff.mp stepped
      cases same
      exact release_move released

end IndependentRunner

end CodeSpace.Runner
