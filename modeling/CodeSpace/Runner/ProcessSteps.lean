import CodeSpace.Runner.ControlSteps

namespace CodeSpace.Runner

open Data

/-! What the steps of an independent Runner do to its processes. The Runner remembers every process it
created for as long as it lives, also once the process itself was evicted. -/

/-- The answer says that the process was created. -/
def Recalled.started : Recalled → Bool
  | .held _ _ | .dropped => true
  | .notReceived | .refused => false

section Memory

variable {processes before after : Processes} {processId workspaceId : String} {onKill : Bool}

/-- No process the Runner remembers to have created is forgotten. -/
structure Remembers (before after : Processes) : Prop where
  keep : after.keep = before.keep
  executed {processId : String} (known : before.received.lookup processId = some .executed) :
    after.received.lookup processId = some .executed

theorem Remembers.of_eq (keep : after.keep = before.keep) (received : after.received = before.received) :
    Remembers before after :=
  ⟨keep, fun known => received ▸ known⟩

theorem Remembers.trans {middle : Processes} (left : Remembers before middle)
    (right : Remembers middle after) : Remembers before after :=
  ⟨right.keep.trans left.keep, fun known => right.executed (left.executed known)⟩

theorem remember_remembers (received : Received) :
    Remembers processes (processes.remember processId received) := by
  unfold Processes.remember
  split
  · exact .of_eq rfl rfl
  · refine ⟨rfl, fun {other} known => ?_⟩
    by_cases same : other = processId
    · subst same
      simp [known]
    · simp [AList.lookup_insert_ne same, known]

theorem fill_remembers : Remembers processes (processes.fill workspaceId processId onKill) := by
  refine Remembers.trans ?_ (remember_remembers .executed)
  exact .of_eq rfl rfl

theorem fill_executed (keeps : processes.keep.isSome = true) :
    (processes.fill workspaceId processId onKill).received.lookup processId = some .executed := by
  have kept : processes.keep.isNone = false := by simpa using keeps
  simp [Processes.fill, Processes.remember, Processes.freeSlot, kept]

theorem recall_started (known : processes.received.lookup processId = some .executed) :
    (processes.recall processId).started = true := by
  unfold Processes.recall
  split
  · rfl
  · simp [known, Recalled.started]

end Memory

/-- The notices that tell of a process. -/
def Notice.ofProcess : Notice → Bool
  | .created _ | .filled _ | .recalled _ _ _ => true
  | _ => false

/-- What one step does to the Runner's processes and its memory of them. -/
structure ProcessStep (before : IndependentRunner) (notice : Notice) (after : IndependentRunner) :
    Prop where
  memory : Remembers before.processes after.processes
  created {processId : String} (shown : notice = .created processId) :
    ∃ index job workspaceId, before.jobs.lookup index = some job ∧
      IndependentRunner.spawnedProcess job.op = some (workspaceId, processId) ∧
      after.jobs.lookup index = some { job with stage := .spawned }
  filled {processId : String} (shown : notice = .filled processId)
    (keeps : before.processes.keep.isSome = true) :
    after.processes.received.lookup processId = some .executed
  recalled {connection epoch : Nat} {answers : List (String × Recalled)}
    (shown : notice = .recalled connection epoch answers) :
    (∃ index job processIds, before.jobs.lookup index = some job ∧ job.connection = connection ∧
      job.epoch = epoch ∧ job.op = .recall processIds) ∧
    ∀ {processId answer}, (processId, answer) ∈ answers → answer = before.processes.recall processId

section Steps

variable {before middle after : IndependentRunner} {notice : Notice} {event : RunnerEvent} {id : Nat}

theorem ProcessStep.plain (plain : notice.ofProcess = false)
    (memory : Remembers before.processes after.processes) : ProcessStep before notice after where
  memory := memory
  created shown := by
    subst shown
    contradiction
  filled shown := by
    subst shown
    contradiction
  recalled shown := by
    subst shown
    contradiction

theorem ProcessStep.of_processes (step : ProcessStep before notice middle)
    (uncreated : ∀ processId, notice ≠ .created processId)
    (same : after.processes = middle.processes) : ProcessStep before notice after where
  memory := same ▸ step.memory
  created shown := absurd shown (uncreated _)
  filled shown keeps := same ▸ step.filled shown keeps
  recalled shown := step.recalled shown

namespace IndependentRunner

theorem setPhase_remembers {processes : Processes} {phase : Phase} (same : before.processes = processes) :
    Remembers processes (before.setPhase id phase).processes := by
  rw [setPhase_processes, same]
  exact .of_eq rfl rfl

theorem noteReceived_remembers (op : RunnerOp) :
    Remembers before.processes (before.noteReceived op).processes := by
  unfold noteReceived
  split
  · exact remember_remembers _
  · exact .of_eq rfl rfl

variable {uid : Except String Nat}

theorem claim_processes {storeId : String} (claimed : before.claim id uid storeId = (notice, after)) :
    notice.ofProcess = false ∧ after.processes = before.processes := by
  unfold claim at claimed
  split at claimed
  · cases claimed
    exact ⟨rfl, setPhase_processes⟩
  · split at claimed
    · cases claimed
      exact ⟨rfl, setPhase_processes⟩
    · cases claimed
      exact ⟨rfl, setPhase_processes⟩

theorem request_remembers {sent : Option Nat} {op : RunnerOp}
    (requested : before.request id sent op = (notice, after)) :
    notice.ofProcess = false ∧ Remembers before.processes after.processes := by
  unfold request at requested
  split at requested
  · cases requested
    refine ⟨rfl, ?_⟩
    rw [setPhase_processes]
    exact noteReceived_remembers op
  · cases requested
    refine ⟨rfl, ?_⟩
    split
    · exact .of_eq rfl rfl
    · exact setPhase_remembers rfl

theorem handle_remembers {frame : Frame} (handled : before.handle id uid frame = (notice, after)) :
    notice.ofProcess = false ∧ Remembers before.processes after.processes := by
  unfold handle at handled
  repeat' split at handled
  any_goals
    cases handled
    exact ⟨rfl, setPhase_remembers rfl⟩
  · obtain ⟨plain, same⟩ := claim_processes handled
    rw [same]
    exact ⟨plain, .of_eq rfl rfl⟩
  · exact request_remembers handled

theorem receive_processStep (received : before.receive id = some (notice, after)) :
    ProcessStep before notice after := by
  unfold receive at received
  split at received
  · split at received
    · split at received
      · split at received
        · contradiction
        · cases received
          exact .plain rfl (setPhase_remembers rfl)
      · obtain ⟨plain, remembers⟩ := handle_remembers (Option.some.inj received)
        exact .plain plain remembers
    · contradiction
  · contradiction

theorem pollClaim_processStep {expired : Bool}
    (polled : before.pollClaim id expired = some (notice, after)) :
    ProcessStep before notice after := by
  unfold pollClaim at polled
  split at polled
  · split at polled
    · dsimp only at polled
      split at polled
      · cases polled
        exact .plain rfl (setPhase_remembers rfl)
      · cases polled
        exact .plain rfl (setPhase_remembers rfl)
      · cases polled
        exact .plain rfl (.of_eq rfl rfl)
    · contradiction
  · contradiction

theorem reserve_processStep (reserved : before.reserve id = some after) :
    ProcessStep before .quiet after := by
  unfold reserve at reserved
  split at reserved
  · split at reserved
    · split at reserved
      · split at reserved
        next taken =>
          cases reserved
          unfold Processes.reserveSlot at taken
          split at taken
          · contradiction
          · split at taken
            · contradiction
            · cases taken
              exact .plain rfl (.of_eq rfl rfl)
        · cases reserved
          exact .plain rfl (.of_eq rfl rfl)
      · contradiction
    · contradiction
  · contradiction

theorem spawn_processStep {created : Bool}
    (spawned : before.spawn id created = some (notice, after)) : ProcessStep before notice after := by
  unfold spawn at spawned
  split at spawned
  next job stored =>
    split at spawned
    next workspaceId _ starts =>
      split at spawned
      · split at spawned
        · cases spawned
          refine ⟨.of_eq rfl rfl, fun shown => ?_, nofun, nofun⟩
          cases shown
          exact ⟨id, job, workspaceId, stored, starts, AList.lookup_insert _⟩
        · cases spawned
          exact .plain rfl (.of_eq rfl rfl)
      · contradiction
    · contradiction
  · contradiction

theorem fill_processStep (filled : before.fill id = some (notice, after)) :
    ProcessStep before notice after := by
  unfold fill at filled
  split at filled
  · split at filled
    · split at filled
      · cases filled
        refine ⟨fill_remembers, nofun, fun shown keeps => ?_, nofun⟩
        cases shown
        exact fill_executed keeps
      · contradiction
    · contradiction
  · contradiction

theorem settle_processStep {job : Job} (stored : before.jobs.lookup id = some job) :
    ProcessStep before (before.settle job).1 (before.settle job).2 := by
  unfold settle
  split
  next processIds asked =>
    refine ⟨.of_eq rfl rfl, nofun, nofun, fun shown => ?_⟩
    cases shown
    refine ⟨⟨id, job, processIds, stored, rfl, rfl, asked⟩, fun listed => ?_⟩
    obtain ⟨_, _, same⟩ := List.mem_map.mp listed
    cases same
    rfl
  · exact .plain rfl (.of_eq rfl rfl)
  · exact .plain rfl (.of_eq rfl rfl)
  · split
    · refine .plain rfl (Remembers.trans ?_ (remember_remembers _))
      split <;> exact .of_eq rfl rfl
    · exact .plain rfl (.of_eq rfl rfl)

theorem settle_uncreated (runner : IndependentRunner) (job : Job) (processId : String) :
    (runner.settle job).1 ≠ .created processId := by
  unfold settle
  split
  · nofun
  · nofun
  · nofun
  · split <;> nofun

theorem answer_processStep (answered : before.answer id = some (notice, after)) :
    ProcessStep before notice after := by
  unfold answer at answered
  split at answered
  next job stored =>
    split at answered
    · contradiction
    · obtain ⟨rfl, rfl⟩ := Prod.mk.inj (Option.some.inj answered)
      refine (settle_processStep stored).of_processes (before.settle_uncreated job) ?_
      split
      · rfl
      · rw [setPhase_processes]
  · contradiction

theorem Acts.processStep {job : Job} {act : Act} (acts : Acts before job act after) :
    ProcessStep before (.acts job act) after := by
  refine .plain rfl ?_
  rw [acts.same]
  exact .of_eq rfl rfl

theorem step_processStep (stepped : before.step event = some (notice, after)) :
    ProcessStep before notice after := by
  cases event with
  | stopRequested | evicts =>
      cases stepped
      exact .plain rfl (.of_eq rfl rfl)
  | accepts | readsAhead | streamEnds | drains | stopsServing | detaches =>
      obtain ⟨next, moved, same⟩ := Option.map_eq_some_iff.mp stepped
      cases same
      simp only [accept, readFrame, endStream, drain, stopServing, detach] at moved
      repeat' split at moved
      all_goals cases moved
      all_goals exact .plain rfl (.of_eq rfl rfl)
  | seesStop | replies | releases =>
      obtain ⟨next, moved, same⟩ := Option.map_eq_some_iff.mp stepped
      cases same
      simp only [seeStop, reply, release] at moved
      repeat' split at moved
      all_goals cases moved
      all_goals exact .plain rfl (setPhase_remembers rfl)
  | receives => exact receive_processStep stepped
  | pollsClaim => exact pollClaim_processStep stepped
  | reserves =>
      obtain ⟨_, reserved, same⟩ := Option.map_eq_some_iff.mp stepped
      cases same
      exact reserve_processStep reserved
  | spawns => exact spawn_processStep stepped
  | fills => exact fill_processStep stepped
  | answers => exact answer_processStep stepped
  | kills =>
      obtain ⟨_, _, rfl, acts⟩ := kill_acts stepped
      exact acts.processStep
  | errandKills =>
      obtain ⟨_, _, rfl, acts⟩ := errandKill_acts stepped
      exact acts.processStep
  | finishesErrand =>
      obtain ⟨_, _, rfl, acts, _⟩ := finishErrand_acts stepped
      exact acts.processStep
  | finishes =>
      cases stepped
      refine .plain rfl ?_
      unfold Processes.finish
      dsimp only
      split <;> exact .of_eq rfl rfl

end IndependentRunner

end Steps

end CodeSpace.Runner
