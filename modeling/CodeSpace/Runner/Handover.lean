import CodeSpace.Runner.ControlSafety

namespace CodeSpace.Runner

/-! What a controller inherits: the barrier of its Claim, and how it clears it. The barrier belongs to
one controller, while the set it is taken from lasts as long as the Runner. -/

/-- A request that starts work in the workspace was admitted under the epoch. -/
def StartedUnder (trace : List Observed) (epoch : Nat) (workspaceId : String) : Prop :=
  ∃ label ∈ trace, ∃ connection sent op, label.notice = .admitted connection sent epoch op ∧
    startsWork op = some workspaceId

/-- A `Reconciled` that names the workspace was admitted under the epoch. -/
def ReconciledUnder (trace : List Observed) (epoch : Nat) (workspaceId : String) : Prop :=
  ∃ label ∈ trace, ∃ connection sent workspaceIds,
    label.notice = .admitted connection sent epoch (.reconciled workspaceIds) ∧
    workspaceId ∈ workspaceIds

variable {trace : List Observed} {label : Observed} {epoch : Nat} {workspaceId : String}
  {runner start previous next : IndependentRunner}

theorem ReconciledUnder.append (reconciled : ReconciledUnder trace epoch workspaceId) :
    ReconciledUnder (trace ++ [label]) epoch workspaceId := by
  obtain ⟨past, member, shown⟩ := reconciled
  exact ⟨past, List.mem_append_left _ member, shown⟩

theorem startedUnder_append : StartedUnder (trace ++ [label]) epoch workspaceId ↔
    StartedUnder trace epoch workspaceId ∨ ∃ connection sent op,
      label.notice = .admitted connection sent epoch op ∧ startsWork op = some workspaceId := by
  simp [StartedUnder, or_and_right, exists_or]

theorem startedUnder_idle (idle : ∀ connection sent epoch op,
      label.notice = .admitted connection sent epoch op → startsWork op = none)
    (epoch : Nat) (workspaceId : String) :
    StartedUnder (trace ++ [label]) epoch workspaceId ↔ StartedUnder trace epoch workspaceId := by
  rw [startedUnder_append, or_iff_left]
  rintro ⟨connection, sent, op, shown, starts⟩
  rw [idle _ _ _ _ shown] at starts
  contradiction

/-- The barrier and the set of all workspaces, in terms of what was admitted. -/
structure Inherited (trace : List Observed) (view : ControlView) : Prop where
  started (workspaceId : String) :
    workspaceId ∈ view.control.startedIn ↔ ∃ epoch, StartedUnder trace epoch workspaceId
  bounded {epoch : Nat} {workspaceId : String} (began : StartedUnder trace epoch workspaceId) :
    epoch ≤ view.control.epoch
  cleared {controller : Controller} {epoch : Nat} {workspaceId : String}
    (controls : view.control.controller = some controller)
    (began : StartedUnder trace epoch workspaceId) (older : epoch < controller.epoch)
    (unbarred : workspaceId ∉ controller.barrier) :
    ReconciledUnder trace controller.epoch workspaceId
  logged {index : Nat} {job : Job} (running : view.jobs.lookup index = some job) :
    ∃ past ∈ trace, past.notice = .admitted job.connection job.sent job.epoch job.op

section Moves

variable {before after : ControlView} {index : Nat} {job : Job} {controller : Controller}
  {workspaceIds : List String}

section

variable (inherited : Inherited trace before)
include inherited

section

variable (move : Move before label.notice after)
include move

theorem Inherited.logged_move (running : after.jobs.lookup index = some job) :
    ∃ past ∈ trace ++ [label], past.notice = .admitted job.connection job.sent job.epoch job.op := by
  rcases move.job running with ⟨old, found, same⟩ | ⟨shown, _⟩
  · obtain ⟨past, member, shown⟩ := inherited.logged found
    rw [same]
    exact ⟨past, List.mem_append_left _ member, shown⟩
  · exact ⟨label, by simp, shown⟩

/-- A step that admits no work. -/
theorem Inherited.idle (idle : ∀ connection sent epoch op,
      label.notice = .admitted connection sent epoch op → startsWork op = none)
    (startedIn : after.control.startedIn = before.control.startedIn)
    (epoch : before.control.epoch ≤ after.control.epoch)
    (cleared : ∀ {controller epoch workspaceId}, after.control.controller = some controller →
      StartedUnder trace epoch workspaceId → epoch < controller.epoch →
      workspaceId ∉ controller.barrier → ReconciledUnder trace controller.epoch workspaceId) :
    Inherited (trace ++ [label]) after where
  started workspaceId := by
    simp only [startedIn, startedUnder_idle idle]
    exact inherited.started workspaceId
  bounded began := (inherited.bounded ((startedUnder_idle idle _ _).mp began)).trans epoch
  cleared controls began older unbarred :=
    (cleared controls ((startedUnder_idle idle _ _).mp began) older unbarred).append
  logged running := inherited.logged_move move running

end

theorem Inherited.admitted {sent : Option Nat} {op : RunnerOp} (guarded : Guarded before)
    (move : Move before label.notice after)
    (shown : label.notice = .admitted controller.connection sent controller.epoch op)
    (controls : before.control.controller = some controller)
    (control : after.control = { before.control with
      startedIn := before.control.startedIn ∪ (startsWork op).toFinset }) :
    Inherited (trace ++ [label]) after := by
  have starts : ∀ {epoch workspaceId}, StartedUnder (trace ++ [label]) epoch workspaceId ↔
      StartedUnder trace epoch workspaceId ∨
        epoch = controller.epoch ∧ startsWork op = some workspaceId := by
    intro epoch workspaceId
    rw [startedUnder_append, shown]
    constructor
    · rintro (old | ⟨_, _, _, same, starts⟩)
      · exact .inl old
      · cases same
        exact .inr ⟨rfl, starts⟩
    · rintro (old | ⟨rfl, starts⟩)
      · exact .inl old
      · exact .inr ⟨_, _, _, rfl, starts⟩
  refine ⟨fun workspaceId => ?_, fun {epoch workspaceId} began => ?_,
    fun {other epoch workspaceId} held began older unbarred => ?_,
    fun running => inherited.logged_move move running⟩
  · rw [control]
    simp only [Finset.mem_union, Option.mem_toFinset, Option.mem_def, starts, exists_or,
      inherited.started workspaceId]
    simp
  · rw [control]
    rcases starts.mp began with old | ⟨rfl, _⟩
    · exact inherited.bounded old
    · exact Nat.le_of_eq (guarded.current controls)
  · rw [control] at held
    cases controls.symm.trans held
    rcases starts.mp began with old | ⟨rfl, _⟩
    · exact (inherited.cleared controls old older unbarred).append
    · exact absurd older (Nat.lt_irrefl _)

end

theorem Control.reconciled_barrier {control : Control} {connection : Nat}
    (controls : (control.reconciled connection workspaceIds).controller = some controller)
    (unbarred : workspaceId ∉ controller.barrier) :
    ∃ old, control.controller = some old ∧ old.epoch = controller.epoch ∧
      (workspaceId ∉ old.barrier ∨ workspaceId ∈ workspaceIds) := by
  obtain ⟨old, held, same⟩ := Option.map_eq_some_iff.mp controls
  refine ⟨old, held, ?_⟩
  split at same
  · subst same
    refine ⟨rfl, ?_⟩
    by_cases named : workspaceId ∈ workspaceIds
    · exact .inr named
    · refine .inl fun barred => unbarred ?_
      exact Finset.mem_filter.mpr ⟨barred, by simpa using named⟩
  · subst same
    exact ⟨rfl, .inl unbarred⟩

theorem Inherited.move (inherited : Inherited trace before) (guarded : Guarded before)
    (move : Move before label.notice after) : Inherited (trace ++ [label]) after := by
  have moved := move
  have silently (silent : label.notice.silent = true) (connection : Nat) (sent : Option Nat) (epoch : Nat)
      (op : RunnerOp) (shown : label.notice = .admitted connection sent epoch op) :
      startsWork op = none := by
    rw [shown] at silent
    contradiction
  generalize shown : label.notice = notice at move
  cases move with
  | kept silent control | claimEnded silent _ control | restaged silent _ control =>
      refine inherited.idle moved (silently (shown ▸ silent)) (by rw [control]) (by rw [control]) ?_
      rw [control]
      exact inherited.cleared
  | claimBegun _ _ _ control =>
      refine inherited.idle moved (silently (shown ▸ rfl)) (by rw [control]) (by rw [control]) ?_
      rw [control]
      exact inherited.cleared
  | stopAdmitted _ _ control =>
      refine inherited.idle moved (fun _ _ _ _ same => ?_) (by rw [control]) (by rw [control]) ?_
      · cases shown.symm.trans same
        rfl
      · rw [control]
        exact inherited.cleared
  | claimed _ _ control =>
      refine inherited.idle moved (fun _ _ _ _ same => ?_) (by rw [control])
        (by simp [control]) fun controls began _ unbarred => ?_
      · cases shown.symm.trans same
      · rw [control] at controls
        cases controls
        exact absurd ((inherited.started _).mpr ⟨_, began⟩) unbarred
  | admitted controls _ _ _ control => exact inherited.admitted guarded moved shown controls control
  | answered silent stored control =>
      rcases control with same | ⟨workspaceIds, isReconciled, same⟩
      · refine inherited.idle moved (silently (shown ▸ silent)) (by rw [same]) (by rw [same]) ?_
        rw [same]
        exact inherited.cleared
      · refine inherited.idle moved (silently (shown ▸ silent)) (by rw [same]; rfl) (by rw [same]; rfl)
          fun controls began older unbarred => ?_
        rw [same] at controls
        obtain ⟨_, held, sameEpoch, cleared⟩ := Control.reconciled_barrier controls unbarred
        rw [← sameEpoch] at older ⊢
        rcases cleared with outside | named
        · exact inherited.cleared held began older outside
        · obtain ⟨⟨_, own⟩, _⟩ := guarded.owned stored
          cases held.symm.trans own
          obtain ⟨past, member, shown⟩ := inherited.logged stored
          rw [isReconciled] at shown
          exact ⟨past, member, _, _, _, shown, named⟩
  | released _ _ control =>
      rw [Control.release] at control
      refine inherited.idle moved (silently (shown ▸ rfl)) ?_ ?_ fun controls => ?_
      · rw [control]
        split <;> rfl
      · rw [control]
        split <;> rfl
      · rw [control] at controls
        split at controls
        · contradiction
        · exact inherited.cleared controls

end Moves

theorem inherited_of_run (isInitial : runnerSystem.initial start)
    (run : runnerSystem.Run start trace runner) : Inherited trace runner.view := by
  have started : Guarded start.view ∧ Inherited [] start.view := by
    refine ⟨guarded_of_reachable ⟨start, [], isInitial, .refl start⟩, ?_⟩
    obtain ⟨_, _, _, rfl⟩ := isInitial
    exact {
      started := by simp [StartedUnder, IndependentRunner.new, IndependentRunner.view]
      bounded := by simp [StartedUnder]
      cleared := by simp [StartedUnder]
      logged := by simp [IndependentRunner.new, IndependentRunner.view] }
  refine (run.records (fun trace runner => Guarded runner.view ∧ Inherited trace runner.view)
    (fun {past before after label} holds stepped => ?_) started).2
  have move := IndependentRunner.step_move stepped
  exact ⟨holds.1.move move, holds.2.move holds.1 move⟩

/-- At every step of every run: a request that starts work where an earlier controller was admitted
to start work is admitted only after this controller's own `Reconciled` for that workspace; and an
accepted Claim's barrier names exactly the workspaces of earlier controllers. -/
theorem work_is_admitted_after_reconciliation (isInitial : runnerSystem.initial start)
    (run : runnerSystem.Run start trace previous)
    (stepped : runnerSystem.step previous label next) :
    (∀ connection sent epoch op workspaceId,
      label.notice = .admitted connection sent epoch op → startsWork op = some workspaceId →
      ∀ older, older < epoch → StartedUnder trace older workspaceId →
        ReconciledUnder trace epoch workspaceId) ∧
    ∀ connection storeId claim, label.notice = .claimed connection storeId claim →
      ∀ workspaceId, workspaceId ∈ claim.barrier ↔
        ∃ older, older < claim.epoch ∧ StartedUnder trace older workspaceId := by
  have inherited := inherited_of_run isInitial run
  have move := IndependentRunner.step_move stepped
  refine ⟨fun connection sent epoch op workspaceId shown starts older isOlder began => ?_,
    fun connection storeId claim shown workspaceId => ?_⟩
  · rw [shown] at move
    obtain ⟨barrier, controls, _, unbarred, _⟩ := move.of_admitted
    exact inherited.cleared controls began isOlder (unbarred workspaceId starts)
  · rw [shown] at move
    obtain ⟨_, _, epoch, barrier⟩ := move.of_claimed
    rw [barrier, epoch, inherited.started]
    constructor
    · rintro ⟨older, began⟩
      exact ⟨older, Nat.lt_succ_of_le (inherited.bounded began), began⟩
    · rintro ⟨older, _, began⟩
      exact ⟨older, began⟩

/-- A second controller reconciles the workspace of the first before it starts work there. -/
theorem second_controller_reconciles_first :
    let events : List RunnerEvent := [.accepts (.ok 0),
      .readsAhead 0 (.request none (some (.claim "store"))), .receives 0, .pollsClaim 0 false,
      .replies 0 true, .readsAhead 0 (.request (some 1) (some (.exec "space" "first"))), .receives 0,
      .answers 0, .replies 0 true, .streamEnds 0, .receives 0, .drains 0, .releases 0,
      .accepts (.ok 0), .readsAhead 1 (.request none (some (.claim "store"))), .receives 1,
      .pollsClaim 1 false, .replies 1 true,
      .readsAhead 1 (.request (some 2) (some (.reconciled ["space"]))), .receives 1, .answers 1,
      .replies 1 true, .readsAhead 1 (.request (some 2) (some (.exec "space" "second")))]
    ∃ trace runner next, (IndependentRunner.new 0 "30s" 8).replay events = some (trace, runner) ∧
      runnerSystem.step runner
        ⟨.receives 1, .admitted 1 (some 2) 2 (.exec "space" "second")⟩ next ∧
      StartedUnder trace 1 "space" ∧ ReconciledUnder trace 2 "space" := by
  intro events
  obtain ⟨trace, runner, next, replayed, stepped, began⟩ : ∃ trace runner next,
      (IndependentRunner.new 0 "30s" 8).replay events = some (trace, runner) ∧
      runnerSystem.step runner
        ⟨.receives 1, .admitted 1 (some 2) 2 (.exec "space" "second")⟩ next ∧
      StartedUnder trace 1 "space" :=
    ⟨_, _, _, rfl, rfl, _, List.mem_of_getElem? (i := 6) rfl, 0, some 1, _, rfl, rfl⟩
  have admitted := (work_is_admitted_after_reconciliation ⟨_, _, _, rfl⟩
    (IndependentRunner.run_of_replay replayed) stepped).1 1 (some 2) 2 _ "space" rfl rfl
  exact ⟨trace, runner, next, replayed, stepped, began, admitted 1 (by decide) began⟩

end CodeSpace.Runner
