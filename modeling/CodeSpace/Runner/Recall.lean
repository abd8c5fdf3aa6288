import CodeSpace.Runner.Handover
import CodeSpace.Runner.ProcessSteps

namespace CodeSpace.Runner

/-! What a Recall may be relied on for. The gateway takes a negative answer as proof that the process
was never created. -/

/-- A request to start the process was admitted under the epoch. -/
def AskedUnder (trace : List Observed) (epoch : Nat) (processId : String) : Prop :=
  ∃ label ∈ trace, ∃ connection sent op, label.notice = .admitted connection sent epoch op ∧
    startedProcess op = some processId

def Notice.asks (epoch : Nat) (processId : String) : Notice → Bool
  | .admitted _ _ under op => under = epoch && startedProcess op = some processId
  | _ => false

theorem askedUnder_iff {trace : List Observed} {epoch : Nat} {processId : String} :
    AskedUnder trace epoch processId ↔ ∃ label ∈ trace, label.notice.asks epoch processId = true := by
  constructor
  · rintro ⟨label, member, connection, sent, op, shown, starts⟩
    exact ⟨label, member, by simp [shown, Notice.asks, starts]⟩
  · rintro ⟨label, member, asks⟩
    unfold Notice.asks at asks
    split at asks
    next connection sent _ op shown =>
      simp only [Bool.and_eq_true, decide_eq_true_eq] at asks
      exact ⟨label, member, connection, sent, op, asks.1 ▸ shown, asks.2⟩
    · contradiction

instance (trace : List Observed) (epoch : Nat) (processId : String) :
    Decidable (AskedUnder trace epoch processId) :=
  decidable_of_iff _ askedUnder_iff.symm

/-- The request has created the process and not handed it over. -/
def HandsOver (runner : IndependentRunner) (index : Nat) (job : Job) (processId : String) : Prop :=
  runner.jobs.lookup index = some job ∧ job.stage = .spawned ∧
    ∃ workspaceId, IndependentRunner.spawnedProcess job.op = some (workspaceId, processId)

/-- Every process created so far is remembered, or still to be handed over. -/
structure Remembered (trace : List Observed) (runner : IndependentRunner) : Prop where
  keeps : runner.processes.keep.isSome = true
  filled {label : Observed} {processId : String} (member : label ∈ trace)
    (shown : label.notice = .filled processId) :
    runner.processes.received.lookup processId = some .executed
  created {label : Observed} {processId : String} (member : label ∈ trace)
    (shown : label.notice = .created processId) :
    runner.processes.received.lookup processId = some .executed ∨
      ∃ index job, HandsOver runner index job processId
  beside {index : Nat} {job : Job} (running : runner.jobs.lookup index = some job) :
    job.beside = answeredBeside job.op

variable {trace : List Observed} {label : Observed} {epoch index : Nat} {processId workspaceId : String}
  {runner start before after : IndependentRunner} {job : Job} {op : RunnerOp} {notice : Notice}

theorem op_of_spawned (spawns : IndependentRunner.spawnedProcess op = some (workspaceId, processId)) :
    op = .exec workspaceId processId ∨ op = .launch workspaceId processId := by
  unfold IndependentRunner.spawnedProcess at spawns
  split at spawns
  · cases spawns
    exact .inl rfl
  · cases spawns
    exact .inr rfl
  · contradiction

theorem startedProcess_of_spawned
    (spawns : IndependentRunner.spawnedProcess op = some (workspaceId, processId)) :
    startedProcess op = some processId := by
  rcases op_of_spawned spawns with rfl | rfl <;> rfl

/-- A process that was created stays with its request until it is handed over. -/
theorem Move.spawned {before after : ControlView} (move : Move before notice after)
    (guarded : Guarded before) (running : before.jobs.lookup index = some job)
    (spawned : job.stage = .spawned) :
    after.jobs.lookup index = some job ∨ ∃ workspaceId processId,
      IndependentRunner.spawnedProcess job.op = some (workspaceId, processId) ∧
      notice = .filled processId := by
  cases move with
  | kept _ _ jobs | stopAdmitted _ _ _ jobs | claimBegun _ _ _ _ jobs | claimed _ _ _ jobs
  | claimEnded _ _ _ jobs | released _ _ _ jobs =>
      rw [jobs]
      exact .inl running
  | admitted _ _ _ _ _ jobs =>
      rw [jobs, AList.lookup_insert_ne (Nat.ne_of_lt (guarded.numbered running))]
      exact .inl running
  | @restaged _ _ other old _ _ stored _ jobs _ _ handedOver =>
      by_cases same : index = other
      · subst same
        cases running.symm.trans stored
        exact .inr (handedOver spawned)
      · rw [jobs, AList.lookup_insert_ne same]
        exact .inl running
  | @answered _ _ other old _ stored _ jobs _ _ settled =>
      by_cases same : index = other
      · subst same
        cases running.symm.trans stored
        exact absurd spawned settled
      · rw [jobs, AList.lookup_erase_ne same]
        exact .inl running

theorem Remembered.step (remembered : Remembered trace before) (guarded : Guarded before.view)
    (stepped : runnerSystem.step before label after) : Remembered (trace ++ [label]) after := by
  have move := IndependentRunner.step_move stepped
  have step := IndependentRunner.step_processStep stepped
  refine ⟨?_, fun {past processId} member shown => ?_, fun {past processId} member shown => ?_,
    fun running => ?_⟩
  · rw [step.memory.keep]
    exact remembered.keeps
  · rcases List.mem_append.mp member with old | new
    · exact step.memory.executed (remembered.filled old shown)
    · cases List.mem_singleton.mp new
      exact step.filled shown remembered.keeps
  · rcases List.mem_append.mp member with old | new
    · rcases remembered.created old shown with known | ⟨index, job, running, spawned, starts⟩
      · exact .inl (step.memory.executed known)
      · obtain ⟨workspaceId, spawns⟩ := starts
        rcases move.spawned guarded running spawned with kept | ⟨_, _, alsoSpawns, handedOver⟩
        · exact .inr ⟨index, job, kept, spawned, workspaceId, spawns⟩
        · cases spawns.symm.trans alsoSpawns
          exact .inl (step.filled handedOver remembered.keeps)
    · cases List.mem_singleton.mp new
      obtain ⟨index, _, workspaceId, _, spawns, running⟩ := step.created shown
      exact .inr ⟨index, _, running, rfl, workspaceId, spawns⟩
  · rcases move.job running with ⟨old, found, same⟩ | ⟨_, placed⟩
    · have placed := remembered.beside found
      rw [same]
      exact placed
    · exact placed

theorem remembered_of_run (isInitial : runnerSystem.initial start)
    (run : runnerSystem.Run start trace runner) : Remembered trace runner := by
  have started : Guarded start.view ∧ Remembered [] start := by
    refine ⟨guarded_of_reachable ⟨start, [], isInitial, .refl start⟩, ?_⟩
    obtain ⟨_, _, _, rfl⟩ := isInitial
    exact ⟨rfl, nofun, nofun, nofun⟩
  refine (run.records (fun trace runner => Guarded runner.view ∧ Remembered trace runner)
    (fun {past before after label} holds stepped => ?_) started).2
  exact ⟨holds.1.move (IndependentRunner.step_move stepped), holds.2.step holds.1 stepped⟩

theorem AskedUnder.append (asked : AskedUnder trace epoch processId) :
    AskedUnder (trace ++ [label]) epoch processId := by
  obtain ⟨past, member, shown⟩ := asked
  exact ⟨past, List.mem_append_left _ member, shown⟩

theorem Move.epoch_le {before after : ControlView}
    (move : Move before notice after) : before.control.epoch ≤ after.control.epoch := by
  cases move with
  | kept _ control | stopAdmitted _ _ control | claimBegun _ _ _ control | claimEnded _ _ control
  | admitted _ _ _ _ control | restaged _ _ control => rw [control]
  | claimed _ _ control =>
      rw [control]
      exact Nat.le_succ _
  | answered _ _ control =>
      rcases control with same | ⟨_, _, same⟩
      · rw [same]
      · rw [same]
        exact Nat.le_refl _
  | released _ _ control =>
      rw [control, Control.release]
      split <;> exact Nat.le_refl _

/-- Since some moment under the epoch, every request to start the process was admitted later. -/
structure AskedSince (epoch : Nat) (processId : String) (later : List Observed)
    (runner : IndependentRunner) : Prop where
  guarded : Guarded runner.view
  reached : epoch ≤ runner.control.epoch
  asked {index : Nat} {job : Job} (running : runner.jobs.lookup index = some job)
    (starts : startedProcess job.op = some processId) :
    epoch ≤ job.epoch ∧ AskedUnder later job.epoch processId

theorem AskedSince.step (since : AskedSince epoch processId trace before)
    (stepped : runnerSystem.step before label after) :
    AskedSince epoch processId (trace ++ [label]) after := by
  have move := IndependentRunner.step_move stepped
  refine ⟨since.guarded.move move, since.reached.trans move.epoch_le,
    fun {index job} running starts => ?_⟩
  rcases move.job running with ⟨old, found, same⟩ | ⟨admitted, _⟩
  · rw [same] at starts
    obtain ⟨newer, asked⟩ := since.asked found starts
    rw [same]
    exact ⟨newer, asked.append⟩
  · rw [admitted] at move
    obtain ⟨_, controls, _⟩ := move.of_admitted
    have current : job.epoch = before.control.epoch := since.guarded.current controls
    refine ⟨?_, label, by simp, _, _, _, admitted, starts⟩
    rw [current]
    exact since.reached

/-- A process that no request in progress starts is created only for one admitted from here on. -/
theorem AskedSince.of_created {later : List Observed} {creating : Observed}
    {last : IndependentRunner} (since : AskedSince epoch processId [] runner)
    (run : runnerSystem.Run runner (later ++ [creating]) last)
    (shown : creating.notice = .created processId) :
    ∃ newer, epoch ≤ newer ∧ AskedUnder later newer processId := by
  obtain ⟨_, meanwhile, final⟩ := run.split
  have recorded := meanwhile.records (AskedSince epoch processId) (fun since => since.step) since
  cases final with
  | cons creates =>
      obtain ⟨_, job, _, running, spawns, _⟩ := (IndependentRunner.step_processStep creates).created shown
      exact ⟨job.epoch, recorded.asked running (startedProcess_of_spawned spawns)⟩

theorem Guarded.together {view : ControlView} (guarded : Guarded view) {other : Nat} {otherJob : Job}
    (running : view.jobs.lookup index = some job) (alsoRunning : view.jobs.lookup other = some otherJob) :
    job.connection = otherJob.connection ∧ job.epoch = otherJob.epoch := by
  obtain ⟨⟨_, controls⟩, _⟩ := guarded.owned running
  obtain ⟨⟨_, alsoControls⟩, _⟩ := guarded.owned alsoRunning
  have same := Option.some.inj (controls.symm.trans alsoControls)
  exact ⟨congrArg Controller.connection same, congrArg Controller.epoch same⟩

/-- A Recall is answered in turn, so that only a request answered beside it can be handing over. -/
theorem Remembered.launches (remembered : Remembered trace runner) (guarded : Guarded runner.view)
    {recallIndex : Nat} {recalling : Job} {processIds : List String}
    (recalls : runner.jobs.lookup recallIndex = some recalling)
    (asks : recalling.op = .recall processIds) (handing : HandsOver runner index job processId) :
    ∃ workspaceId, job.op = .launch workspaceId processId := by
  obtain ⟨running, _, workspaceId, spawns⟩ := handing
  rcases op_of_spawned spawns with executes | launches
  · have inTurn : job.beside = false := by
      rw [remembered.beside running, executes]
      rfl
    have alsoInTurn : recalling.beside = false := by
      rw [remembered.beside recalls, asks]
      rfl
    have answering := guarded.inTurn running inTurn
    have alsoAnswering := guarded.inTurn recalls alsoInTurn
    rw [(guarded.together running recalls).1, alsoAnswering] at answering
    cases answering
    cases recalls.symm.trans running
    cases asks.symm.trans executes
  · exact ⟨workspaceId, launches⟩

/-- In every run, at a Recall answered under an epoch. A negative answer for a process that no request
admitted under the epoch asked for means that it was never created, and that only a later request,
under this epoch or a newer one, can create it. A process that was handed over is never denied, and
one that was created is denied only while a Launch of the same epoch has yet to hand it over. -/
theorem recall_denies_only_what_was_not_created (isInitial : runnerSystem.initial start)
    (run : runnerSystem.Run start trace before) (stepped : runnerSystem.step before label after)
    {connection : Nat} {answers : List (String × Recalled)} {answer : Recalled}
    (shown : label.notice = .recalled connection epoch answers)
    (answered : (processId, answer) ∈ answers) :
    (answer.started = false → ¬ AskedUnder trace epoch processId →
      (∀ past ∈ trace, past.notice ≠ .created processId) ∧
      ∀ later creating last, runnerSystem.Run after (later ++ [creating]) last →
        creating.notice = .created processId →
        ∃ newer, epoch ≤ newer ∧ AskedUnder later newer processId) ∧
    (∀ past ∈ trace, past.notice = .filled processId → answer.started = true) ∧
    ∀ past ∈ trace, past.notice = .created processId → answer.started = false →
      ∃ index job workspaceId, before.jobs.lookup index = some job ∧ job.epoch = epoch ∧
        job.op = .launch workspaceId processId ∧ job.stage = .spawned := by
  have guarded := guarded_of_reachable ⟨start, trace, isInitial, run⟩
  have inherited := inherited_of_run isInitial run
  have remembered := remembered_of_run isInitial run
  obtain ⟨⟨_, recalling, _, recalls, _, sameEpoch, asks⟩, same⟩ :=
    (IndependentRunner.step_processStep stepped).recalled shown
  have known (executed : before.processes.received.lookup processId = some .executed) :
      answer.started = true := by
    rw [same answered]
    exact recall_started executed
  have ownEpoch {index : Nat} {job : Job} (running : before.jobs.lookup index = some job) :
      job.epoch = epoch :=
    (guarded.together running recalls).2.trans sameEpoch
  have unstarted (unasked : ¬ AskedUnder trace epoch processId) {index : Nat} {job : Job}
      (running : before.jobs.lookup index = some job) : startedProcess job.op ≠ some processId := by
    intro starts
    obtain ⟨past, member, admitted⟩ := inherited.logged running
    exact unasked ⟨past, member, _, _, _, ownEpoch running ▸ admitted, starts⟩
  refine ⟨fun denied unasked => ⟨fun past member created => ?_,
      fun later creating last continued => AskedSince.of_created ?_ continued⟩,
    fun past member filled => known (remembered.filled member filled),
    fun past member created denied => ?_⟩
  · rcases remembered.created member created with executed | ⟨index, job, running, _, _, spawns⟩
    · rw [known executed] at denied
      contradiction
    · exact unstarted unasked running (startedProcess_of_spawned spawns)
  · have move := IndependentRunner.step_move stepped
    obtain ⟨⟨_, controls⟩, _⟩ := guarded.owned recalls
    have current : recalling.epoch = before.control.epoch := guarded.current controls
    refine ⟨guarded.move move, ?_, fun running starts => ?_⟩
    · rw [← sameEpoch, current]
      exact move.epoch_le
    · rcases move.job running with ⟨old, found, kept⟩ | ⟨admitted, _⟩
      · have started := unstarted unasked found
        rw [kept] at starts
        contradiction
      · rw [shown] at admitted
        contradiction
  · rcases remembered.created member created with executed | ⟨index, job, handing⟩
    · rw [known executed] at denied
      contradiction
    · obtain ⟨workspaceId, launches⟩ := remembered.launches guarded recalls asks handing
      exact ⟨index, job, workspaceId, handing.1, ownEpoch handing.1, launches, handing.2.1⟩

/-- A process that ended and was evicted is still known, one that nobody asked for was never created. -/
theorem evicted_process_is_recalled :
    let events : List RunnerEvent := [.accepts (.ok 0),
      .readsAhead 0 (.request none (some (.claim "store"))), .receives 0, .pollsClaim 0 false,
      .replies 0 true, .readsAhead 0 (.request (some 1) (some (.exec "space" "ended"))), .receives 0,
      .reserves 0, .spawns 0 true, .fills 0, .answers 0, .replies 0 true, .finishes "ended",
      .evicts ["ended"], .readsAhead 0 (.request (some 1) (some (.recall ["ended", "unknown"]))),
      .receives 0]
    ∃ trace runner next, (IndependentRunner.new 0 "30s" 8).replay events = some (trace, runner) ∧
      runnerSystem.step runner
        ⟨.answers 1, .recalled 0 1 [("ended", .dropped), ("unknown", .notReceived)]⟩ next ∧
      ∀ past ∈ trace, past.notice ≠ .created "unknown" := by
  intro events
  obtain ⟨trace, runner, next, replayed, stepped, unasked⟩ : ∃ trace runner next,
      (IndependentRunner.new 0 "30s" 8).replay events = some (trace, runner) ∧
      runnerSystem.step runner
        ⟨.answers 1, .recalled 0 1 [("ended", .dropped), ("unknown", .notReceived)]⟩ next ∧
      ¬ AskedUnder trace 1 "unknown" := by
    refine ⟨_, _, _, rfl, rfl, ?_⟩
    decide
  have shows := recall_denies_only_what_was_not_created ⟨_, _, _, rfl⟩
    (IndependentRunner.run_of_replay replayed) stepped rfl (List.mem_cons_of_mem _ (.head _))
  exact ⟨trace, runner, next, replayed, stepped, (shows.1 rfl unasked).1⟩

/-- Between the creation of a launched process and its hand-over, its controller's Recall denies it. -/
theorem launched_process_is_denied_before_its_hand_over :
    let events : List RunnerEvent := [.accepts (.ok 0),
      .readsAhead 0 (.request none (some (.claim "store"))), .receives 0, .pollsClaim 0 false,
      .replies 0 true, .readsAhead 0 (.request (some 1) (some (.launch "space" "process"))),
      .receives 0, .reserves 0, .spawns 0 true,
      .readsAhead 0 (.request (some 1) (some (.recall ["process"]))), .receives 0]
    ∃ trace runner next, (IndependentRunner.new 0 "30s" 8).replay events = some (trace, runner) ∧
      runnerSystem.Run (.new 0 "30s" 8) trace runner ∧
      (∃ past ∈ trace, past.notice = .created "process") ∧
      runnerSystem.step runner ⟨.answers 1, .recalled 0 1 [("process", .notReceived)]⟩ next := by
  intro events
  obtain ⟨trace, runner, next, replayed, created, stepped⟩ : ∃ trace runner next,
      (IndependentRunner.new 0 "30s" 8).replay events = some (trace, runner) ∧
      (∃ past ∈ trace, past.notice = .created "process") ∧
      runnerSystem.step runner ⟨.answers 1, .recalled 0 1 [("process", .notReceived)]⟩ next :=
    ⟨_, _, _, rfl, ⟨_, List.mem_of_getElem? (i := 8) rfl, rfl⟩, rfl⟩
  exact ⟨trace, runner, next, replayed, IndependentRunner.run_of_replay replayed, created, stepped⟩

end CodeSpace.Runner
