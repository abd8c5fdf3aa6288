import CodeSpace.Runner.ControlSteps

namespace CodeSpace.Runner

/-! Control of an independent Runner passes from one connection to the next only when nothing of the
first is left running. -/

def ControlView.controls (view : ControlView) (connection epoch : Nat) : Prop :=
  ∃ barrier, view.control.controller = some ⟨connection, epoch, barrier⟩

/-- Every request in progress is the controller's, admitted under its epoch. -/
structure Guarded (view : ControlView) : Prop where
  current {controller : Controller} (controls : view.control.controller = some controller) :
    controller.epoch = view.control.epoch
  numbered {index : Nat} {job : Job} (running : view.jobs.lookup index = some job) :
    index < view.nextJob
  owned {index : Nat} {job : Job} (running : view.jobs.lookup index = some job) :
    view.controls job.connection job.epoch ∧ (fenced job.op = true → job.sent = some job.epoch)
  inTurn {index : Nat} {job : Job} (running : view.jobs.lookup index = some job)
    (alone : job.beside = false) : view.phaseOf job.connection = some (.answering index)
  claiming {id : Nat} {storeId : String} (waits : view.phaseOf id = some (.claiming storeId)) :
    view.control.claiming = some id ∧ ∀ known, view.control.storeId = some known → known = storeId

variable {before after : ControlView} {notice : Notice} {id index connection epoch : Nat} {job : Job}
  {control : Control} {controller : Controller} {op : RunnerOp} {sent : Option Nat}
  {workspaceIds : List String}

section

variable (guarded : Guarded before)
include guarded

theorem Guarded.stands (controller : after.control.controller = before.control.controller)
    (epoch : after.control.epoch = before.control.epoch) (jobs : after.jobs = before.jobs)
    (nextJob : after.nextJob = before.nextJob)
    (inTurn : ∀ {index job}, before.jobs.lookup index = some job → job.beside = false →
      after.phaseOf job.connection = some (.answering index))
    (claiming : ∀ {id storeId}, after.phaseOf id = some (.claiming storeId) →
      after.control.claiming = some id ∧ ∀ known, after.control.storeId = some known → known = storeId) :
    Guarded after where
  current controls := by
    rw [controller] at controls
    rw [epoch]
    exact guarded.current controls
  numbered running := by
    rw [jobs] at running
    rw [nextJob]
    exact guarded.numbered running
  owned running := by
    rw [jobs] at running
    rw [ControlView.controls, controller]
    exact guarded.owned running
  inTurn running := inTurn (jobs ▸ running)
  claiming := claiming

theorem Guarded.idle (vacant : before.control.controller = none)
    (index : Nat) : before.jobs.lookup index = none := by
  cases running : before.jobs.lookup index with
  | none => rfl
  | some =>
      obtain ⟨⟨_, controls⟩, _⟩ := guarded.owned running
      cases vacant.symm.trans controls

/-- A connection that is not answering moves on; the requests answered in turn stay where they are. -/
theorem Guarded.inTurn_moved {old phase : Phase}
    (phases : ∀ other, after.phaseOf other = if other = id then some phase else before.phaseOf other)
    (present : before.phaseOf id = some old) (idle : ∀ index, old ≠ .answering index)
    (running : before.jobs.lookup index = some job) (alone : job.beside = false) :
    after.phaseOf job.connection = some (.answering index) := by
  have busy := guarded.inTurn running alone
  rw [phases, if_neg]
  · exact busy
  · intro same
    rw [same, present] at busy
    exact idle index (Option.some.inj busy)

/-- Once the only connection that waits for a Claim has its answer, none waits. -/
theorem Guarded.replies {other : Nat} {storeId otherStore : String}
    (phases : ∀ other, after.phaseOf other = if other = id then some .replying else before.phaseOf other)
    (waited : before.phaseOf id = some (.claiming storeId)) :
    after.phaseOf other ≠ some (.claiming otherStore) := by
  intro waits
  rw [phases] at waits
  split at waits
  · cases waits
  next apart =>
    exact apart (Option.some.inj ((guarded.claiming waits).1.symm.trans (guarded.claiming waited).1))

theorem Guarded.admitted {startedIn : Finset String}
    (controls : before.control.controller = some controller)
    (current : fenced op = true → sent = some controller.epoch)
    (reading : before.phaseOf controller.connection = some .reading)
    (control : after.control = { before.control with startedIn := startedIn })
    (jobs : after.jobs = before.jobs.insert before.nextJob
      ⟨controller.connection, sent, controller.epoch, op, answeredBeside op, .started⟩)
    (nextJob : after.nextJob = before.nextJob + 1) (phases : ∀ other, after.phaseOf other =
      if other = controller.connection ∧ answeredBeside op = false then
        some (.answering before.nextJob)
      else before.phaseOf other) : Guarded after := by
  refine ⟨fun held => ?_, fun running => ?_, fun running => ?_, fun running alone => ?_,
    fun {other otherStore} waits => ?_⟩
  · rw [control] at held ⊢
    exact guarded.current held
  · rw [nextJob]
    rcases lookup_added (jobs ▸ running) with ⟨rfl, _⟩ | old
    · exact Nat.lt_succ_self _
    · exact Nat.lt_succ_of_lt (guarded.numbered old)
  · rw [ControlView.controls, control]
    rcases lookup_added (jobs ▸ running) with ⟨_, rfl⟩ | old
    · exact ⟨⟨controller.barrier, controls⟩, current⟩
    · exact guarded.owned old
  · rcases lookup_added (jobs ▸ running) with ⟨rfl, rfl⟩ | old
    · rw [phases, if_pos ⟨rfl, alone⟩]
    · have busy := guarded.inTurn old alone
      rw [phases, if_neg]
      · exact busy
      · rintro ⟨same, _⟩
        rw [same, reading] at busy
        cases busy
  · rw [control]
    rw [phases] at waits
    split at waits
    · cases waits
    · exact guarded.claiming waits

end

theorem Control.reconciled_controls
    (controls : (control.reconciled connection workspaceIds).controller = some controller) :
    ∃ barrier, control.controller = some { controller with barrier := barrier } := by
  obtain ⟨old, held, same⟩ := Option.map_eq_some_iff.mp controls
  refine ⟨old.barrier, ?_⟩
  rw [held]
  split at same <;> (subst same; rfl)

theorem Control.reconciled_holds {barrier : Finset String}
    (controls : control.controller = some ⟨id, epoch, barrier⟩) :
    ∃ left, (control.reconciled connection workspaceIds).controller = some ⟨id, epoch, left⟩ := by
  simp only [Control.reconciled, controls, Option.map_some]
  split <;> exact ⟨_, rfl⟩

theorem Guarded.answered (guarded : Guarded before) (stored : before.jobs.lookup index = some job)
    (control : after.control = before.control ∨ ∃ workspaceIds, job.op = .reconciled workspaceIds ∧
      after.control = before.control.reconciled job.connection workspaceIds)
    (jobs : after.jobs = before.jobs.erase index) (nextJob : after.nextJob = before.nextJob)
    (phases : ∀ other, after.phaseOf other = if other = job.connection ∧ job.beside = false then
        (before.phaseOf other).map fun _ => .replying
      else before.phaseOf other) : Guarded after := by
  have sameControl : after.control.epoch = before.control.epoch ∧
      after.control.claiming = before.control.claiming ∧
      after.control.storeId = before.control.storeId := by
    rcases control with same | ⟨workspaceIds, _, same⟩
    · rw [same]
      exact ⟨rfl, rfl, rfl⟩
    · rw [same]
      exact ⟨rfl, rfl, rfl⟩
  refine ⟨fun {controller} held => ?_, fun running => ?_, fun {other found} running => ?_,
    fun {other found} running alone => ?_, fun {id storeId} waits => ?_⟩
  · rw [sameControl.1]
    rcases control with same | ⟨workspaceIds, _, same⟩
    · rw [same] at held
      exact guarded.current held
    · rw [same] at held
      obtain ⟨barrier, old⟩ := Control.reconciled_controls held
      have current := guarded.current old
      exact current
  · rw [nextJob]
    exact guarded.numbered (lookup_erased (jobs ▸ running)).2
  · obtain ⟨⟨barrier, controls⟩, epoch⟩ := guarded.owned (lookup_erased (jobs ▸ running)).2
    refine ⟨?_, epoch⟩
    rcases control with same | ⟨workspaceIds, _, same⟩
    · exact ⟨barrier, same ▸ controls⟩
    · rw [ControlView.controls, same]
      exact Control.reconciled_holds controls
  · obtain ⟨apart, old⟩ := lookup_erased (jobs ▸ running)
    have busy := guarded.inTurn old alone
    rw [phases, if_neg]
    · exact busy
    · rintro ⟨same, alsoAlone⟩
      rw [same, guarded.inTurn stored alsoAlone] at busy
      cases busy
      exact apart rfl
  · rw [sameControl.2.1, sameControl.2.2]
    rw [phases] at waits
    split at waits
    · obtain ⟨_, _, impossible⟩ := Option.map_eq_some_iff.mp waits
      cases impossible
    · exact guarded.claiming waits

/-- A connection lets go once its requests have ended: those beside were joined, and one answered in
turn would still have its task. -/
theorem Guarded.released {ending : Ending} (guarded : Guarded before)
    (drained : before.phaseOf id = some (.draining ending))
    (joined : ∀ {index job}, before.jobs.lookup index = some job → job.connection = id →
      job.beside = false)
    (control : after.control = (before.control.release id).2)
    (jobs : after.jobs = before.jobs) (nextJob : after.nextJob = before.nextJob)
    (phases : ∀ other, after.phaseOf other =
      if other = id then some .closed else before.phaseOf other) : Guarded after := by
  have others : ∀ {index job}, before.jobs.lookup index = some job → job.connection ≠ id := by
    intro index job running own
    have busy := guarded.inTurn running (joined running own)
    rw [own, drained] at busy
    cases busy
  have sameControl : after.control.epoch = before.control.epoch ∧
      after.control.claiming = before.control.claiming ∧
      after.control.storeId = before.control.storeId := by
    rw [control, Control.release]
    split <;> exact ⟨rfl, rfl, rfl⟩
  refine ⟨fun {controller} held => ?_, fun running => ?_, fun {index job} running => ?_,
    fun {index job} running alone => ?_, fun {other storeId} waits => ?_⟩
  · rw [sameControl.1]
    rw [control, Control.release] at held
    split at held
    · contradiction
    · exact guarded.current held
  · rw [jobs] at running
    rw [nextJob]
    exact guarded.numbered running
  · rw [jobs] at running
    obtain ⟨⟨barrier, controls⟩, epoch⟩ := guarded.owned running
    have notOwn : (before.control.controller.any (·.connection = id)) = false := by
      simpa [controls] using others running
    refine ⟨⟨barrier, ?_⟩, epoch⟩
    rw [control, Control.release, notOwn]
    exact controls
  · rw [jobs] at running
    exact guarded.inTurn_moved phases drained (by simp) running alone
  · rw [sameControl.2.1, sameControl.2.2]
    rw [phases] at waits
    split at waits
    · cases waits
    · exact guarded.claiming waits

theorem Guarded.move (guarded : Guarded before) (move : Move before notice after) : Guarded after := by
  cases move with
  | kept _ control jobs nextJob phases | stopAdmitted _ _ control jobs nextJob phases =>
      refine guarded.stands (by rw [control]) (by rw [control]) jobs nextJob
        (fun running alone => phases.answering (guarded.inTurn running alone)) fun waits => ?_
      rw [control]
      exact guarded.claiming (phases.claiming waits)
  | @claimBegun _ id storeId sameStore free reading control jobs nextJob phases =>
      refine guarded.stands (by rw [control]) (by rw [control]) jobs nextJob
        (guarded.inTurn_moved phases reading (by simp)) fun waits => ?_
      rw [phases] at waits
      split at waits
      next same =>
        cases waits
        rw [control, same]
        exact ⟨rfl, sameStore⟩
      · have held := (guarded.claiming waits).1
        cases free.symm.trans held
  | claimed waited vacant control jobs _ phases =>
      have idle : ∀ {index job}, after.jobs.lookup index ≠ some job := by
        intro index job running
        rw [jobs, guarded.idle vacant] at running
        contradiction
      refine ⟨fun controls => ?_, fun running => absurd running idle, fun running => absurd running idle,
        fun running => absurd running idle, fun waits => absurd waits (guarded.replies phases waited)⟩
      rw [control] at controls ⊢
      cases controls
      rfl
  | claimEnded _ waited control jobs nextJob phases =>
      exact guarded.stands (by rw [control]) (by rw [control]) jobs nextJob
        (guarded.inTurn_moved phases waited (by simp)) fun waits =>
          absurd waits (guarded.replies phases waited)
  | admitted controls current _ reading control jobs nextJob phases =>
      exact guarded.admitted controls current reading control jobs nextJob phases
  | restaged _ stored control jobs nextJob phases =>
      refine ⟨fun held => ?_, fun running => ?_, fun running => ?_, fun running alone => ?_,
        fun waits => ?_⟩
      · rw [control] at held ⊢
        exact guarded.current held
      · obtain ⟨old, found, _⟩ := lookup_restaged stored (jobs ▸ running)
        rw [nextJob]
        exact guarded.numbered found
      · obtain ⟨old, found, same⟩ := lookup_restaged stored (jobs ▸ running)
        have held := guarded.owned found
        rw [ControlView.controls, control, same]
        exact held
      · obtain ⟨_, found, same⟩ := lookup_restaged stored (jobs ▸ running)
        rw [same] at alone ⊢
        have busy := guarded.inTurn found alone
        rw [phases]
        exact busy
      · rw [control]
        exact guarded.claiming ((phases _).symm.trans waits)
  | answered _ stored control jobs nextJob phases =>
      exact guarded.answered stored control jobs nextJob phases
  | released drained joined control jobs nextJob phases =>
      exact guarded.released drained joined control jobs nextJob phases

section Runs

variable {runner start previous next : IndependentRunner} {label : Observed} {trace : List Observed}

theorem guarded_of_reachable (reachable : runnerSystem.Reachable runner) : Guarded runner.view := by
  refine reachable.invariant (fun runner => Guarded runner.view) ?_ ?_
  · rintro state ⟨ownerUid, claimWait, limit, rfl⟩
    exact ⟨nofun, nofun, nofun, nofun, nofun⟩
  · intro before after label stepped guarded
    exact guarded.move (IndependentRunner.step_move stepped)

def Notice.claimEpoch : Notice → Option Nat
  | .claimed _ _ claim => some claim.epoch
  | _ => none

theorem Notice.claimEpoch_of_silent (silent : notice.silent = true) : notice.claimEpoch = none := by
  cases notice <;> first | rfl | contradiction

theorem Control.release_controller
    (held : (control.release id).2.controller ≠ none) : control.controller ≠ none := by
  unfold Control.release at held
  split at held
  · exact absurd rfl held
  · exact held

theorem Move.claimEpoch (move : Move before notice after) :
    (notice.claimEpoch = none ∧ after.control.epoch = before.control.epoch ∧
      (after.control.controller ≠ none → before.control.controller ≠ none)) ∨
    notice.claimEpoch = some (before.control.epoch + 1) ∧
      after.control.epoch = before.control.epoch + 1 := by
  cases move with
  | kept silent control | restaged silent _ control | claimEnded silent _ control =>
      rw [control]
      exact .inl ⟨Notice.claimEpoch_of_silent silent, rfl, id⟩
  | stopAdmitted _ _ control | claimBegun _ _ _ control | admitted _ _ _ _ control =>
      rw [control]
      exact .inl ⟨rfl, rfl, id⟩
  | claimed _ _ control =>
      rw [control]
      exact .inr ⟨rfl, rfl⟩
  | answered silent _ control =>
      refine .inl ⟨Notice.claimEpoch_of_silent silent, ?_⟩
      rcases control with same | ⟨workspaceIds, _, same⟩
      · rw [same]
        exact ⟨rfl, id⟩
      · rw [same]
        refine ⟨rfl, fun held vacant => held ?_⟩
        rw [Control.reconciled, vacant, Option.map_none]
  | released _ _ control =>
      rw [control]
      refine .inl ⟨rfl, ?_, Control.release_controller⟩
      unfold Control.release
      split <;> rfl

theorem Move.storeId {known : String} (move : Move before notice after)
    (stored : before.control.storeId = some known) : after.control.storeId = some known := by
  cases move with
  | kept _ control | stopAdmitted _ _ control | claimBegun _ _ _ control | claimEnded _ _ control
  | admitted _ _ _ _ control | restaged _ _ control =>
      rw [control]
      exact stored
  | claimed _ _ control =>
      rw [control, stored]
      rfl
  | answered _ _ control =>
      rcases control with same | ⟨workspaceIds, _, same⟩
      · rw [same]
        exact stored
      · rw [same]
        exact stored
  | released _ _ control =>
      rw [control, Control.release]
      split <;> exact stored

theorem Move.of_claimed {storeId : String} {claim : RunnerClaim}
    (move : Move before (.claimed connection storeId claim) after) :
    before.phaseOf connection = some (.claiming storeId) ∧ before.control.controller = none ∧
      claim.epoch = before.control.epoch + 1 ∧ claim.barrier = before.control.startedIn := by
  generalize shown : Notice.claimed connection storeId claim = notice at move
  cases move with
  | kept silent | claimEnded silent | restaged silent | answered silent =>
      subst shown
      contradiction
  | claimed waited vacant =>
      cases shown
      exact ⟨waited, vacant, rfl, rfl⟩
  | stopAdmitted | claimBegun | admitted | released => contradiction

theorem Move.of_admitted (move : Move before (.admitted connection sent epoch op) after) :
    ∃ barrier, before.control.controller = some ⟨connection, epoch, barrier⟩ ∧
      (fenced op = true → sent = some epoch) ∧
      (∀ workspaceId, startsWork op = some workspaceId → workspaceId ∉ barrier) ∧
      after.control = { before.control with
        startedIn := before.control.startedIn ∪ (startsWork op).toFinset } := by
  generalize shown : Notice.admitted connection sent epoch op = notice at move
  cases move with
  | kept silent | claimEnded silent | restaged silent | answered silent =>
      subst shown
      contradiction
  | stopAdmitted controls current control =>
      cases shown
      refine ⟨_, controls, fun _ => current, by simp [startsWork], ?_⟩
      rw [control]
      simp [startsWork]
  | admitted controls current unbarred _ control =>
      cases shown
      exact ⟨_, controls, current, unbarred, control⟩
  | claimed | claimBegun | released => contradiction

end Runs

end CodeSpace.Runner
