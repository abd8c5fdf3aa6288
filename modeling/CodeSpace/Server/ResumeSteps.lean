import CodeSpace.Server.ResumeTasks

namespace CodeSpace.Server

open Data Domain Store

/-! What every step of a gateway does to the approvals, and which task holds an approval in flight. -/

variable {config : Config} {env : Environment} {shared changed : Shared} {before after : Gateway}
  {trace : List Label} {label : Label} {id : String} {task : Task} {touched : Option String}

theorem PatchCall.advance_minted (shared : Shared) (call : PatchCall) :
    shared.minted ⊆ (call.advance config shared env).shared.minted := by
  obtain ⟨_, _, stage⟩ := call
  cases stage with
  | begins => exact List.subset_cons_self _ _
  | _ => exact List.Subset.refl _

theorem PatchCall.advance_dated {call : PatchCall} {operationId : String} {next : OperationRow}
    (fresh : env.newId ∉ shared.minted) (known : operationId ∈ shared.minted)
    (stored : (call.advance config shared env).shared.operations.find? operationId = some next) :
    ∃ row, shared.operations.find? operationId = some row ∧ row.createdAt = next.createdAt := by
  have finished {id : String} {result : ApplyPatchResult}
      (stored : (shared.operations.finish id result shared.now).2.find? operationId = some next) :
      ∃ row, shared.operations.find? operationId = some row ∧ row.createdAt = next.createdAt := by
    rw [Operations.find?_finish] at stored
    obtain ⟨row, found, same⟩ := Option.map_eq_some_iff.mp stored
    refine ⟨row, found, ?_⟩
    rw [← same]
    split <;> rfl
  obtain ⟨params, resume, stage⟩ := call
  cases stage with
  | begins =>
      rcases (Operations.begin_step _ _ _ _ _ _).known stored with found | new
      · exact ⟨next, found, rfl⟩
      · exact absurd (new ▸ known) fresh
  | finishes | rejects => exact finished stored
  | abandons id error =>
      rw [show (PatchCall.advance config shared env ⟨params, resume, .abandons id error⟩).shared.operations =
        (shared.operations.abandon id).2 from rfl, Operations.find?_abandon] at stored
      exact ⟨next, (Option.filter_eq_some_iff.mp stored).1, rfl⟩
  | _ => exact ⟨next, stored, rfl⟩

/-- No section of a task moves the clock or changes the Runner. -/
structure SameSurroundings (shared next : Shared) : Prop where
  now : next.now = shared.now
  runner : next.runner = shared.runner

theorem PatchCall.advance_surroundings (shared : Shared) (call : PatchCall) :
    SameSurroundings shared (call.advance config shared env).shared := by
  obtain ⟨_, _, stage⟩ := call
  cases stage <;> exact ⟨rfl, rfl⟩

theorem ExecCall.advance_surroundings (shared : Shared) (call : ExecCall) :
    SameSurroundings shared (call.advance config shared env).shared := by
  obtain ⟨_, _, stage⟩ := call
  cases stage <;> exact ⟨rfl, rfl⟩

theorem Pass.advance_surroundings (shared : Shared) (pass : Pass) :
    SameSurroundings shared (pass.advance config shared env).shared :=
  pass.advance_rule (fun _ next => SameSurroundings shared next) (fun _ _ => ⟨rfl, rfl⟩)
    (fun _ _ => ⟨rfl, rfl⟩) (fun _ _ _ _ => ⟨rfl, rfl⟩) (fun _ _ _ => ⟨rfl, rfl⟩)
    fun _ _ _ _ => ⟨rfl, rfl⟩

theorem Task.advance_surroundings (shared : Shared) (task : Task) :
    SameSurroundings shared (task.advance config shared env).shared :=
  task.advance_rule (fun _ next => SameSurroundings shared next) (fun _ _ => ⟨rfl, rfl⟩)
    (fun call _ => call.advance_surroundings shared) (fun call _ => call.advance_surroundings shared)
    (fun _ _ => ⟨rfl, rfl⟩) (fun _ _ _ => ⟨rfl, rfl⟩) fun pass _ => pass.advance_surroundings shared

theorem PatchCall.advance_processes (shared : Shared) (call : PatchCall) :
    (call.advance config shared env).shared.processes = shared.processes := by
  obtain ⟨_, _, stage⟩ := call
  cases stage <;> rfl

theorem Task.advance_records (knows : task.Knows config trace shared)
    (reported : label.report = (task.advance config shared env).report) :
    RecordsMove shared.processes (task.advance config shared env).shared.processes
      (disproved (trace ++ [label])) (ForExecution shared.approvals) := by
  have unstarted {call : ExecCall} (executes : task.executing = some call) (processId : String)
      (error : ErrorBody) (stage : call.stage = .recordsNotStarted processId error) :
      processId ∈ disproved (trace ++ [label]) :=
    disproved_snoc_of_mem (knows.unstarted executes stage)
  have own := knows.own
  refine task.advance_rule (fun report next => label.report = report → RecordsMove shared.processes
    next.processes (disproved (trace ++ [label])) (ForExecution shared.approvals))
    (fun _ _ _ => .refl _) (fun call _ _ => ?_) ?_ (fun _ _ _ => .refl _) (fun _ _ _ _ => .refl _)
    (fun pass _ said => ?_) reported
  · rw [call.advance_processes shared]
    exact .refl _
  · rintro call (rfl | ⟨id, rfl⟩) _
    · exact call.advance_records (fun id resumes => by simp [own] at resumes) (unstarted rfl)
    · obtain ⟨resumes, row, claimed, _⟩ := own
      refine call.advance_records (fun other isFor => ?_) (unstarted rfl)
      cases resumes.symm.trans isFor
      exact ⟨row, claimed.stored, claimed.resolved, claimed.tool⟩
  · refine pass.advance_records fun processId disproves => ?_
    simp [said, disproves, Report.disproved?]

/-- The approval that a step touches is the one its task holds. -/
def Gateway.Touches (gateway : Gateway) (event : Event) (touched : Option String) : Prop :=
  ∀ id ∈ touched, ∃ index env task, event = .continues index env ∧
    gateway.tasks.lookup index = some task ∧ task.guarding = some id

theorem SharedMove.of_frame (approvals : ApprovalMove config trace shared changed label.report touched)
    (records : RecordsMove shared.processes changed.processes (disproved (trace ++ [label]))
      (ForExecution shared.approvals))
    (frame : LedgerFrame shared changed) (clock : shared.now ≤ changed.now) :
    SharedMove config trace label shared changed touched where
  approvals := approvals
  records := records
  minted := frame.minted
  dated _ stored := ⟨_, frame.operations ▸ stored, rfl⟩
  clock := clock

theorem OutsideStep.move (step : OutsideStep config shared changed)
    (quiet : label.report = .quiet) : SharedMove config trace label shared changed none := by
  have still (same : changed.approvals = shared.approvals) :
      ApprovalMove config trace shared changed label.report none :=
    .still same fun send isSent => by simp [quiet, Report.send?] at isSent
  have frame : LedgerFrame shared changed := by
    cases step <;> exact ⟨rfl, List.Subset.refl _⟩
  cases step with
  | createApproval approvalId params =>
      exact .of_frame (quiet ▸ .opened approvalId params rfl) (.refl _) frame le_rfl
  | resolveApproval id decision =>
      exact .of_frame (quiet ▸ .resolved id decision rfl) (.refl _) frame le_rfl
  | ticks => exact .of_frame (still rfl) (.refl _) frame (Nat.le_add_right _ _)
  | links | failNextFinish => exact .of_frame (still rfl) (.refl _) frame le_rfl
  | processEnds _ status =>
      refine .of_frame (still rfl) (.recordEnd fun said => ?_) frame le_rfl
      cases status <;> contradiction
  | observesOutput => exact .of_frame (still rfl) (.recordOutput _ _ _) frame le_rfl
  | losesRunner => exact .of_frame (still rfl) (.recordRunnerLost _ _) frame le_rfl
  | releasesRecord => exact .of_frame (still rfl) (.releaseRecord _ _) frame le_rfl

theorem Task.advance_move (fresh : env.newId ∉ shared.minted) (knows : task.Knows config trace shared)
    (reported : label.report = (task.advance config shared env).report)
    (moves : ApprovalMove config trace shared (task.advance config shared env).shared
      (task.advance config shared env).report touched) :
    SharedMove config trace label shared (task.advance config shared env).shared touched := by
  rw [← reported] at moves
  have records := task.advance_records knows reported
  have clock : shared.now ≤ (task.advance config shared env).shared.now :=
    (task.advance_surroundings shared).now.ge
  cases task.advance_ledger shared with
  | beside frame => exact .of_frame moves records frame clock
  | patched call _ left =>
      refine ⟨moves, records, ?_, fun known stored => ?_, clock⟩
      · rw [left]
        exact call.advance_minted shared
      · rw [left] at stored
        exact PatchCall.advance_dated fresh known stored

/-- Every step moves the approvals as described, and touches only the one that its task holds. -/
theorem Gateway.step_move (stepped : before.step config label.event = some (label.report, after))
    (knows : ∀ index task, before.tasks.lookup index = some task →
      task.Knows config trace before.shared) :
    ∃ touched, SharedMove config trace label before.shared after.shared touched ∧
      before.Touches label.event touched := by
  obtain ⟨event, report⟩ := label
  have untouched : before.Touches event none := fun id touched => by contradiction
  have unmoved {changed : Shared} (quiet : report = .quiet)
      (approvals : changed.approvals = before.shared.approvals)
      (processes : changed.processes = before.shared.processes)
      (frame : LedgerFrame before.shared changed) (clock : changed.now = before.shared.now) :
      SharedMove config trace ⟨event, report⟩ before.shared changed none := by
    refine .of_frame (.still approvals fun send isSent => ?_) (processes ▸ .refl _) frame clock.ge
    simp [quiet, Report.send?] at isSent
  cases Gateway.step_cases stepped with
  | started => exact ⟨none, unmoved rfl rfl rfl (.refl _) rfl, untouched⟩
  | outside changed => exact ⟨none, changed.move rfl, untouched⟩
  | @continued index env task fresh running =>
      have known := knows index task running
      obtain ⟨touched, moves, guards⟩ := task.advance_moves known
      rw [Gateway.setTask_shared]
      exact ⟨touched, task.advance_move fresh known rfl moves,
        fun id isTouched => ⟨index, env, task, rfl, running, guards id isTouched⟩⟩
  | dropped =>
      unfold dropTask
      split <;>
        exact ⟨none, unmoved rfl rfl rfl ⟨rfl, List.Subset.refl _⟩ rfl, untouched⟩
  | reopened runner link =>
      obtain ⟨approvals, operations, processes, minted, now⟩ :=
        Shared.opened_stored config before.shared runner link
      exact ⟨none, unmoved rfl approvals processes ⟨operations, fun _ known => minted ▸ known⟩ now, untouched⟩

/-- What a section of a task does to the marks of the approvals in flight and to the one it holds. -/
inductive GuardTurn (inflight : List String) (held : Option String) : List String → Option String → Prop
  | kept : GuardTurn inflight held inflight held
  | taken (id : String) (free : id ∉ inflight) (idle : held = none) :
      GuardTurn inflight held (id :: inflight) (some id)
  | given (id : String) (holds : held = some id) :
      GuardTurn inflight held (inflight.filter (· ≠ id)) none

theorem GuardTurn.of_eq {inflight after : List String} {held next : Option String}
    (sameMarks : after = inflight) (sameHeld : next = held) : GuardTurn inflight held after next := by
  subst sameMarks sameHeld
  exact .kept

theorem PatchCall.advance_inflight (shared : Shared) (call : PatchCall) :
    (call.advance config shared env).shared.inflight = shared.inflight := by
  obtain ⟨_, _, stage⟩ := call
  cases stage <;> rfl

theorem ExecCall.advance_inflight (shared : Shared) (call : ExecCall) :
    (call.advance config shared env).shared.inflight = shared.inflight := by
  obtain ⟨_, _, stage⟩ := call
  cases stage <;> rfl

theorem ResumeCall.execute_guarding (record : ApprovalRecord) :
    (Task.resume ⟨id, execute config record⟩).guarding = some id := by
  unfold execute
  split <;> split <;> rfl

theorem ResumeCall.afterClaim_guarding (claim : Option (Except ErrorBody ResumeClaim)) :
    (Task.resume ⟨id, afterClaim config claim⟩).guarding = some id := by
  unfold afterClaim
  split
  case h_5 record => exact execute_guarding record
  case h_6 =>
    unfold reconcile
    split
    · rfl
    · split
      · split <;> rfl
      · rfl
  all_goals rfl

theorem ResumeCall.advance_guards (shared : Shared) (call : ResumeCall) :
    GuardTurn shared.inflight (Task.resume call).guarding (call.advance config shared env).shared.inflight
      (Task.resume { call with stage := (call.advance config shared env).stage }).guarding := by
  obtain ⟨id, stage⟩ := call
  cases stage with
  | asks | looks _ | admits _ _ | claims | looksUpId _ _ | readsRecords _ | commits _ =>
      refine .of_eq rfl ?_
      dsimp only [ResumeCall.advance, afterRecords, afterRead]
      split <;> rfl
  | claimMarks =>
      dsimp only [ResumeCall.advance]
      split
      · exact .kept
      next free => exact .taken id free rfl
  | claimRetries | ends _ => exact .given id rfl
  | answers => exact .kept
  | claimTakes => exact .of_eq rfl (afterClaim_guarding _)
  | patches inner | execs inner =>
      dsimp only [ResumeCall.advance]
      split
      · exact .kept
      · exact .of_eq (inner.advance_inflight shared) rfl
  | looksUpKey =>
      refine .of_eq rfl ?_
      dsimp only [ResumeCall.advance, afterKey]
      split
      · rfl
      · split <;> rfl
  | looksUpFingerprint record =>
      refine .of_eq rfl ?_
      dsimp only [ResumeCall.advance, afterFingerprint]
      split
      · rfl
      · split
        · rfl
        · exact execute_guarding record
  | commitWrites => exact .of_eq rfl rfl

theorem Pass.advance_guards (shared : Shared) (pass : Pass) :
    GuardTurn shared.inflight pass.guarding (pass.advance config shared env).shared.inflight
      (pass.advance config shared env).stage.guarding := by
  obtain ⟨_, _, _, _, _, _, stage⟩ := pass
  cases stage with
  | reads =>
      dsimp only [Pass.advance]
      split
      · exact .kept
      · split <;> exact .kept
  | loses runners => cases runners <;> exact .kept
  | applies decided => cases decided <;> exact .kept
  | settles approvals =>
      cases approvals with
      | nil => exact .kept
      | cons =>
          refine .of_eq rfl ?_
          dsimp only [Pass.advance, settle]
          split
          · rfl
          · split
            · split
              · rfl
              · split <;> rfl
            · rfl
  | settleMarks id =>
      dsimp only [Pass.advance]
      split
      · exact .kept
      next free => exact .taken id free rfl
  | settleReads =>
      refine .of_eq rfl ?_
      dsimp only [Pass.advance]
      split
      · rfl
      · split
        · rfl
        · split <;> rfl
  | settleFinishes =>
      refine .of_eq rfl ?_
      dsimp only [Pass.advance]
      split <;> rfl
  | settleEnds id => exact .given id rfl
  | settleReturns | settleFinishWrites | accounts | asks | tells | ended => exact .kept

theorem Task.advance_guards (shared : Shared) (task : Task) :
    GuardTurn shared.inflight task.guarding (task.advance config shared env).shared.inflight
      ((task.advance config shared env).stage.bind Task.guarding) := by
  cases task with
  | patch call | exec call =>
      dsimp only [Task.advance]
      split
      · exact .kept
      · exact .of_eq (call.advance_inflight shared) rfl
  | resume call =>
      dsimp only [Task.advance]
      split
      next stage => exact .of_eq rfl (by simp [guarding, ResumeCall.isGuarding, stage])
      · exact call.advance_guards shared
  | recovery pass =>
      dsimp only [Task.advance]
      split
      next stage => exact .of_eq rfl (by simp [guarding, Pass.guarding, stage])
      · exact pass.advance_guards shared

/-- What a task holds is marked in flight, and no other task holds it. -/
structure Guarded (gateway : Gateway) : Prop where
  marked {index : Nat} {task : Task} {id : String} (running : gateway.tasks.lookup index = some task)
    (holds : task.guarding = some id) : id ∈ gateway.shared.inflight
  single {index other : Nat} {task next : Task} {id : String}
    (running : gateway.tasks.lookup index = some task) (holds : task.guarding = some id)
    (alsoRunning : gateway.tasks.lookup other = some next) (alsoHolds : next.guarding = some id) :
    index = other

namespace Guarded

variable {index : Nat} {task : Task} {next : Option Task}

variable (guarded : Guarded before)
include guarded

/-- The task that moved holds what it held, or what nobody held. -/
theorem own_of_other (running : before.tasks.lookup index = some task)
    (turn : GuardTurn before.shared.inflight task.guarding shared.inflight (next.bind Task.guarding))
    (holds : next.bind Task.guarding = some id) {other : Nat} {holder : Task}
    (alsoRunning : before.tasks.lookup other = some holder) (alsoHolds : holder.guarding = some id) :
    index = other := by
  generalize shared.inflight = marks at turn
  generalize next.bind Task.guarding = held at turn holds
  cases turn with
  | kept => exact guarded.single running holds alsoRunning alsoHolds
  | taken _ free =>
      cases holds
      exact absurd (guarded.marked alsoRunning alsoHolds) free
  | given => contradiction

theorem set (running : before.tasks.lookup index = some task)
    (turn : GuardTurn before.shared.inflight task.guarding shared.inflight
      (next.bind Task.guarding)) : Guarded (before.setTask index shared next) where
  marked {other holder id} found holds := by
    rw [Gateway.setTask_shared]
    by_cases same : other = index
    · subst same
      rw [Gateway.lookup_setTask] at found
      subst found
      have held : (some holder).bind Task.guarding = some id := holds
      generalize shared.inflight = marks at turn
      generalize (some holder).bind Task.guarding = kept at turn held
      cases turn with
      | kept => exact guarded.marked running held
      | taken => exact List.mem_cons.mpr (.inl (Option.some.inj held).symm)
      | given => contradiction
    · rw [Gateway.lookup_setTask_of_ne same] at found
      have marked := guarded.marked found holds
      generalize shared.inflight = marks at turn
      generalize next.bind Task.guarding = kept at turn
      cases turn with
      | kept => exact marked
      | taken => exact List.mem_cons_of_mem _ marked
      | given _ held =>
          refine List.mem_filter.mpr ⟨marked, decide_eq_true fun isGone => same ?_⟩
          subst isGone
          exact guarded.single found holds running held
  single {first second holder alsoHolder id} found holds alsoFound alsoHolds := by
    by_cases isFirst : first = index
    · by_cases isSecond : second = index
      · rw [isFirst, isSecond]
      · subst isFirst
        rw [Gateway.lookup_setTask] at found
        rw [Gateway.lookup_setTask_of_ne isSecond] at alsoFound
        subst found
        exact guarded.own_of_other running turn holds alsoFound alsoHolds
    · rw [Gateway.lookup_setTask_of_ne isFirst] at found
      by_cases isSecond : second = index
      · subst isSecond
        rw [Gateway.lookup_setTask] at alsoFound
        subst alsoFound
        exact (guarded.own_of_other running turn alsoHolds found holds).symm
      · rw [Gateway.lookup_setTask_of_ne isSecond] at alsoFound
        exact guarded.single found holds alsoFound alsoHolds

theorem start (idle : task.guarding = none) : Guarded (before.startTask task) := by
  have old {index : Nat} {holder : Task} {id : String}
      (found : (before.startTask task).tasks.lookup index = some holder)
      (holds : holder.guarding = some id) : before.tasks.lookup index = some holder := by
    by_cases same : index = before.nextTask
    · subst same
      rw [Gateway.startTask, AList.lookup_insert] at found
      cases found
      cases idle.symm.trans holds
    · rwa [Gateway.startTask, AList.lookup_insert_ne same] at found
  exact ⟨fun found holds => guarded.marked (old found holds) holds, fun found holds alsoFound alsoHolds =>
      guarded.single (old found holds) holds (old alsoFound alsoHolds) alsoHolds⟩

theorem step (stepped : before.step config label.event = some (label.report, after)) : Guarded after := by
  obtain ⟨_, _⟩ := label
  cases Gateway.step_cases stepped with
  | started starts => exact guarded.start (by cases starts <;> rfl)
  | outside changed =>
      refine ⟨fun found holds => ?_, guarded.single⟩
      cases changed <;> exact guarded.marked found holds
  | continued _ running => exact guarded.set running (Task.advance_guards _ _)
  | dropped running =>
      unfold Gateway.dropTask
      split
      next id holds => exact guarded.set running (.given id holds)
      next idle => exact guarded.set running (.of_eq rfl idle.symm)
  | reopened => exact ⟨nofun, nofun⟩

end Guarded

end CodeSpace.Server
