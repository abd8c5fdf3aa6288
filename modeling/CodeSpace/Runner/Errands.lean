import CodeSpace.Runner.Handover

namespace CodeSpace.Runner

/-! What a request does once its connection no longer waits for it. A Claim waits for the requests that
are answered, not for their errands. -/

section Moves

variable {before after : ControlView} {notice : Notice} {id other connection epoch : Nat}
  {phase old new : Phase}

theorem leavesTo_moved
    (phases : ∀ other, after.phaseOf other = if other = id then some new else before.phaseOf other)
    (moved : before.phaseOf id = some old) (leaves : old.LeavesTo new)
    (present : before.phaseOf other = some phase) :
    ∃ next, after.phaseOf other = some next ∧ phase.LeavesTo next := by
  rw [phases]
  split
  next same =>
    subst same
    cases moved.symm.trans present
    exact ⟨new, rfl, leaves⟩
  · exact ⟨phase, present, fun left => ⟨left, fun same => same⟩⟩

theorem Move.leavesTo (move : Move before notice after) (guarded : Guarded before)
    (present : before.phaseOf id = some phase) :
    ∃ next, after.phaseOf id = some next ∧ phase.LeavesTo next := by
  have stays : phase.LeavesTo phase := fun left => ⟨left, fun same => same⟩
  cases move with
  | kept _ _ _ _ phases | stopAdmitted _ _ _ _ _ phases => exact phases.present present
  | claimBegun _ _ reading _ _ _ phases => exact leavesTo_moved phases reading nofun present
  | claimed waited _ _ _ _ phases | claimEnded _ waited _ _ _ phases =>
      exact leavesTo_moved phases waited nofun present
  | released drained _ _ _ _ phases =>
      exact leavesTo_moved phases drained (fun _ => ⟨rfl, nofun⟩) present
  | restaged _ _ _ _ _ phases => exact ⟨phase, (phases id).trans present, stays⟩
  | admitted _ _ _ reading _ _ _ phases =>
      rw [phases]
      split
      next own =>
        rw [own.1, reading] at present
        cases present
        exact ⟨_, rfl, nofun⟩
      · exact ⟨phase, present, stays⟩
  | answered _ stored _ _ _ phases =>
      rw [phases]
      split
      next own =>
        rw [own.1, guarded.inTurn stored own.2] at present
        cases present
        refine ⟨_, by rw [own.1, guarded.inTurn stored own.2]; rfl, nofun⟩
      · exact ⟨phase, present, stays⟩

theorem Move.keeps_control (move : Move before notice after) (controls : before.controls connection epoch) :
    after.controls connection epoch ∨ after.phaseOf connection = some .closed := by
  obtain ⟨barrier, held⟩ := controls
  cases move with
  | kept _ control | stopAdmitted _ _ control | claimBegun _ _ _ control | claimEnded _ _ control
  | admitted _ _ _ _ control | restaged _ _ control =>
      rw [ControlView.controls, control]
      exact .inl ⟨barrier, held⟩
  | claimed _ vacant =>
      cases vacant.symm.trans held
  | answered _ _ control =>
      rw [ControlView.controls]
      rcases control with same | ⟨workspaceIds, _, same⟩
      · rw [same]
        exact .inl ⟨barrier, held⟩
      · rw [same]
        exact .inl (Control.reconciled_holds held)
  | @released _ id _ _ _ control _ _ phases =>
      by_cases own : connection = id
      · rw [phases, if_pos own]
        exact .inr rfl
      · rw [ControlView.controls, control, Control.release, if_neg (by simp [held, own])]
        exact .inl ⟨barrier, held⟩

end Moves

def Notice.isAct : Notice → Bool
  | .acts _ _ => true
  | _ => false

namespace IndependentRunner

variable {before after : IndependentRunner} {id index : Nat} {notice : Notice} {phase : Phase}
  {op : RunnerOp} {event : RunnerEvent} {uid : Except String Nat} {sent : Option Nat}

/-- What an errand may do. -/
def mayAct (runner : IndependentRunner) : Errand → Act → Bool
  | .stop job, .kills processId => runner.mayKill processId (.stop job)
  | .stop _, .answersStop => runner.allClosed
  | .deadline _ own, .kills processId => own = processId
  | .settlement _ own, .kills processId | .settlement _ own, .abandons processId => own = processId
  | .killHook _ own, .endsScope processId => own = processId
  | _, _ => false

/-- What one step does to the errands, and for which request it acts. -/
inductive Leaves (before : IndependentRunner) : Notice → IndependentRunner → Prop
  | kept {notice : Notice} {after : IndependentRunner} (plain : notice.isAct = false)
      (errands : after.errands = before.errands) : Leaves before notice after
  | stopped {after : IndependentRunner} {id : Nat} {sent : Option Nat}
      (errands : after.errands = before.errands ++ [.stop (before.newJob id sent .stop)])
      (leaving : after.phaseOf id = some (.leaving .stop)) :
      Leaves before (.admitted id sent before.controllerEpoch .stop) after
  | detached {notice : Notice} {after : IndependentRunner} {errand : Errand} {index : Nat} {job : Job}
      {workspaceId processId : String} (plain : notice.isAct = false)
      (stored : before.jobs.lookup index = some job)
      (follows : errand = .deadline job processId ∧ spawnedProcess job.op = some (workspaceId, processId) ∨
        errand = .settlement job processId ∧ job.op = .launch workspaceId processId)
      (errands : after.errands = before.errands ++ [errand]) : Leaves before notice after
  | acted {after : IndependentRunner} {job : Job} {act : Act} (acts : Acts before job act after)
      (cause : (∃ index, before.jobs.lookup index = some job) ∨
        ∃ errand ∈ before.errands, errand.job = job ∧ before.mayAct errand act = true) :
      Leaves before (.acts job act) after

@[simp]
theorem setPhase_errands : (before.setPhase id phase).errands = before.errands := by
  simp only [setPhase]
  split <;> rfl

@[simp]
theorem noteReceived_errands : (before.noteReceived op).errands = before.errands := by
  simp only [noteReceived]
  split <;> rfl

theorem claim_errands {storeId : String} (claimed : before.claim id uid storeId = (notice, after)) :
    notice.isAct = false ∧ after.errands = before.errands := by
  unfold claim at claimed
  repeat' split at claimed
  all_goals cases claimed
  all_goals exact ⟨rfl, setPhase_errands⟩

theorem request_errands (requested : before.request id sent op = (notice, after)) :
    notice.isAct = false ∧ after.errands = before.errands := by
  unfold request at requested
  split at requested
  · cases requested; exact ⟨rfl, by simp⟩
  · cases requested
    refine ⟨rfl, ?_⟩
    split <;> simp

theorem handle_errands {frame : Frame} (reading : before.phaseOf id = some .reading)
    (handled : before.handle id uid frame = (notice, after)) :
    (notice.isAct = false ∧ after.errands = before.errands) ∨
    ∃ sent, notice = .admitted id sent before.controllerEpoch .stop ∧
      after.errands = before.errands ++ [.stop (before.newJob id sent .stop)] ∧
      after.phaseOf id = some (.leaving .stop) := by
  unfold handle at handled
  repeat' split at handled
  any_goals
    cases handled
    exact .inl ⟨rfl, setPhase_errands⟩
  · cases handled
    refine .inr ⟨_, rfl, by simp, ?_⟩
    rw [phaseOf_setPhase (by rfl) reading, if_pos rfl]
  · exact .inl (claim_errands handled)
  · exact .inl (request_errands handled)

theorem receive_leaves (received : before.receive id = some (notice, after)) :
    Leaves before notice after := by
  unfold receive at received
  split at received
  next connection stored =>
    split at received
    next isReading =>
      split at received
      · split at received
        · contradiction
        · cases received
          exact .kept rfl setPhase_errands
      next rest _ =>
        have reading : (before.setConnection id { connection with frames := rest }).phaseOf id =
            some .reading := by
          rw [phaseOf_setConnection stored, if_pos rfl, ← isReading]
        rcases handle_errands reading (Option.some.inj received) with
          ⟨plain, errands⟩ | ⟨sent, rfl, errands, leaving⟩
        · exact .kept plain errands
        · exact .stopped errands leaving
    · contradiction
  · contradiction

theorem settle_errands (runner : IndependentRunner) (job : Job) :
    (runner.settle job).1.isAct = false ∧ (runner.settle job).2.errands = runner.errands := by
  unfold settle
  repeat' split
  all_goals exact ⟨rfl, rfl⟩

theorem answer_leaves (answered : before.answer index = some (notice, after)) :
    Leaves before notice after := by
  unfold answer at answered
  split at answered
  next job _ =>
    split at answered
    · contradiction
    · obtain ⟨plain, errands⟩ := settle_errands before job
      obtain ⟨rfl, rfl⟩ := Prod.mk.inj (Option.some.inj answered)
      refine .kept plain ?_
      split <;> simp [errands]
  · contradiction

theorem detach_leaves (detached : before.detach index = some after) : Leaves before .quiet after := by
  unfold detach at detached
  split at detached
  next stored =>
    split at detached
    next launch =>
      obtain ⟨_, same⟩ := Option.ite_none_right_eq_some.mp detached
      cases same
      exact .detached rfl stored (.inr ⟨rfl, launch⟩) rfl
    · contradiction
  · contradiction

theorem fill_leaves (filled : before.fill index = some (notice, after)) : Leaves before notice after := by
  unfold fill at filled
  split at filled
  next stored =>
    split at filled
    next starts =>
      obtain ⟨_, same⟩ := Option.ite_none_right_eq_some.mp filled
      cases same
      exact .detached rfl stored (.inl ⟨rfl, starts⟩) rfl
    · contradiction
  · contradiction

theorem finishErrand_leaves {errand : Errand} (finished : before.finishErrand errand = some (notice, after)) :
    Leaves before notice after := by
  obtain ⟨member, _, rfl, acts, does⟩ := finishErrand_acts finished
  refine .acted acts (.inr ⟨errand, member, rfl, ?_⟩)
  cases errand with
  | stop => rw [does.1]; exact does.2
  | deadline => contradiction
  | settlement | killHook => rw [does]; exact decide_eq_true rfl

theorem errandKill_leaves {errand : Errand} {processId : String}
    (killed : before.errandKill errand processId = some (notice, after)) :
    Leaves before notice after := by
  obtain ⟨member, may, rfl, acts⟩ := errandKill_acts killed
  refine .acted acts (.inr ⟨errand, member, rfl, ?_⟩)
  cases errand with
  | stop | deadline | settlement => exact may
  | killHook => contradiction

theorem step_leaves (stepped : before.step event = some (notice, after)) :
    Leaves before notice after := by
  cases event with
  | stopRequested | finishes | evicts => cases stepped; exact .kept rfl rfl
  | accepts | readsAhead | streamEnds | drains | stopsServing | seesStop | replies | releases | reserves =>
      obtain ⟨next, moved, same⟩ := Option.map_eq_some_iff.mp stepped
      cases same
      simp only [accept, readFrame, endStream, drain, stopServing, seeStop, reply, release, reserve] at moved
      repeat' split at moved
      all_goals cases moved
      all_goals exact .kept rfl (by simp [setConnection, setStage])
  | receives => exact receive_leaves stepped
  | pollsClaim | spawns =>
      simp only [step, pollClaim, spawn] at stepped
      repeat' split at stepped
      all_goals cases stepped
      all_goals exact .kept rfl (by simp [setStage])
  | fills => exact fill_leaves stepped
  | detaches =>
      obtain ⟨_, detached, same⟩ := Option.map_eq_some_iff.mp stepped
      cases same
      exact detach_leaves detached
  | kills index =>
      obtain ⟨_, stored, rfl, acts⟩ := kill_acts stepped
      exact .acted acts (.inl ⟨index, stored⟩)
  | answers => exact answer_leaves stepped
  | errandKills => exact errandKill_leaves stepped
  | finishesErrand => exact finishErrand_leaves stepped

end IndependentRunner

section Runs

variable {trace : List Observed} {label : Observed} {errand : Errand} {job : Job} {act : Act}
  {start runner previous next before after : IndependentRunner}

/-- The request was admitted, and a fenced one under the epoch it carries. -/
structure WasAdmitted (trace : List Observed) (job : Job) : Prop where
  shown : ∃ past ∈ trace, past.notice = .admitted job.connection job.sent job.epoch job.op
  current (isFenced : fenced job.op = true) : job.sent = some job.epoch

/-- Where an errand comes from. A Stop is its connection's last request. -/
def Errand.Grounded (trace : List Observed) (view : ControlView) : Errand → Prop
  | .stop job => job.op = .stop ∧ ∃ phase, view.phaseOf job.connection = some phase ∧
      phase.hasLeft = true ∧ (phase = .leaving .stop → view.controls job.connection job.epoch)
  | .deadline job processId =>
      ∃ workspaceId, IndependentRunner.spawnedProcess job.op = some (workspaceId, processId)
  | .settlement job processId => ∃ workspaceId, job.op = .launch workspaceId processId
  | .killHook job processId => ∃ past ∈ trace, past.notice = .acts job (.kills processId)

/-- Every errand is of a request that was admitted. -/
def Trailing (trace : List Observed) (runner : IndependentRunner) : Prop :=
  ∀ errand ∈ runner.errands, WasAdmitted trace errand.job ∧ errand.Grounded trace runner.view

theorem WasAdmitted.append (admitted : WasAdmitted trace job) : WasAdmitted (trace ++ [label]) job := by
  obtain ⟨past, member, shown⟩ := admitted.shown
  exact ⟨⟨past, List.mem_append_left _ member, shown⟩, admitted.current⟩

theorem Errand.Grounded.move {before after : ControlView} (grounded : errand.Grounded trace before)
    (guarded : Guarded before) (move : Move before label.notice after) :
    errand.Grounded (trace ++ [label]) after := by
  cases errand with
  | stop =>
      obtain ⟨isStop, _, present, left, controls⟩ := grounded
      obtain ⟨next, now, leaves⟩ := move.leavesTo guarded present
      refine ⟨isStop, next, now, (leaves left).1, fun leaving => ?_⟩
      refine (move.keeps_control (controls ((leaves left).2 leaving))).resolve_right fun closed => ?_
      cases (now.symm.trans closed).symm.trans (congrArg some leaving)
  | deadline | settlement => exact grounded
  | killHook =>
      obtain ⟨past, member, shown⟩ := grounded
      exact ⟨past, List.mem_append_left _ member, shown⟩

theorem Inherited.wasAdmitted {view : ControlView} {index : Nat} (inherited : Inherited trace view)
    (guarded : Guarded view) (running : view.jobs.lookup index = some job) : WasAdmitted trace job :=
  ⟨inherited.logged running, (guarded.owned running).2⟩

theorem Trailing.step (trailing : Trailing trace before) (guarded : Guarded before.view)
    (inherited : Inherited trace before.view) (stepped : runnerSystem.step before label after) :
    Trailing (trace ++ [label]) after := by
  have move := IndependentRunner.step_move stepped
  have old {errand : Errand} (member : errand ∈ before.errands) :
      WasAdmitted (trace ++ [label]) errand.job ∧ errand.Grounded (trace ++ [label]) after.view :=
    ⟨(trailing errand member).1.append, (trailing errand member).2.move guarded move⟩
  have leaves := IndependentRunner.step_leaves stepped
  generalize shown : label.notice = notice at leaves
  intro errand member
  cases leaves with
  | kept _ errands => exact old (errands ▸ member)
  | @stopped _ id sent errands leaving =>
      rw [errands] at member
      rcases List.mem_append.mp member with kept | new
      · exact old kept
      rw [List.mem_singleton.mp new]
      rw [shown] at move
      obtain ⟨barrier, held, current, _, control⟩ := move.of_admitted
      refine ⟨⟨⟨label, by simp, shown⟩, current⟩, rfl, _, leaving, rfl, fun _ => ⟨barrier, ?_⟩⟩
      rw [control]
      exact held
  | detached _ stored follows errands =>
      rw [errands] at member
      rcases List.mem_append.mp member with kept | new
      · exact old kept
      cases List.mem_singleton.mp new
      have admitted : WasAdmitted (trace ++ [label]) _ := (inherited.wasAdmitted guarded stored).append
      rcases follows with ⟨rfl, starts⟩ | ⟨rfl, launch⟩
      · exact ⟨admitted, _, starts⟩
      · exact ⟨admitted, _, launch⟩
  | @acted _ job act acts cause =>
      rcases acts.errands member with kept | ⟨processId, rfl, rfl⟩
      · exact old kept
      refine ⟨?_, label, by simp, shown⟩
      rcases cause with ⟨index, running⟩ | ⟨errand, running, rfl, _⟩
      · exact (inherited.wasAdmitted guarded running).append
      · exact (trailing errand running).1.append

/-- How a request acts once its controller may be gone: the process that an Exec or a Launch created is
killed at its deadline, or with its Launch's settlement, which is reported; the hook of a process runs
that was killed for the request; and a Stop ends the processes when every connection is closed. -/
inductive Outlives (trace : List Observed) (runner : IndependentRunner) (job : Job) : Act → Prop
  | kills {workspaceId processId : String}
      (own : IndependentRunner.spawnedProcess job.op = some (workspaceId, processId)) :
      Outlives trace runner job (.kills processId)
  | abandons {workspaceId processId : String} (launch : job.op = .launch workspaceId processId) :
      Outlives trace runner job (.abandons processId)
  | endsScope {processId : String}
      (killed : ∃ past ∈ trace, past.notice = .acts job (.kills processId)) :
      Outlives trace runner job (.endsScope processId)
  | stops {act : Act} (isStop : job.op = .stop) (closed : runner.allClosed = true) :
      Outlives trace runner job act

theorem Errand.Grounded.acts (grounded : errand.Grounded trace runner.view)
    (may : runner.mayAct errand act = true) :
    runner.view.controls errand.job.connection errand.job.epoch ∨
      Outlives trace runner errand.job act := by
  cases errand with
  | stop =>
      obtain ⟨isStop, _, present, _, controls⟩ := grounded
      cases act with
      | kills =>
          rcases Bool.or_eq_true_iff.mp may with leaving | closed
          · obtain ⟨_, stored, rfl⟩ := Option.map_eq_some_iff.mp present
            rw [stored] at leaving
            exact .inl (controls (of_decide_eq_true leaving))
          · exact .inr (.stops isStop closed)
      | answersStop => exact .inr (.stops isStop may)
      | _ => contradiction
  | deadline =>
      obtain ⟨workspaceId, starts⟩ := grounded
      cases act with
      | kills => cases of_decide_eq_true may; exact .inr (.kills starts)
      | _ => contradiction
  | settlement =>
      obtain ⟨_, launch⟩ := grounded
      cases act with
      | kills =>
          cases of_decide_eq_true may
          exact .inr (.kills (congrArg IndependentRunner.spawnedProcess launch))
      | abandons => cases of_decide_eq_true may; exact .inr (.abandons launch)
      | _ => contradiction
  | killHook =>
      cases act with
      | endsScope => cases of_decide_eq_true may; exact .inr (.endsScope grounded)
      | _ => contradiction

end Runs

end CodeSpace.Runner
