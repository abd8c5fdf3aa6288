import CodeSpace.Runner.SlotSteps

namespace CodeSpace.Runner

open Data Domain

/-! What a runner holds and how much of it, over any run of its requests, ends and passes. -/

variable {retention : RetentionPolicy} {limit : Nat} {before after runner : InProcessRunner}
  {label : SlotLabel} {trace : List SlotLabel} {notice : SlotNotice} {event : SlotEvent}
  {id : String} {process other : Nat} {phase : CreatedPhase}

theorem RunnerKept.of_reachable (reachable : (slotSystem retention limit).Reachable runner) :
    RunnerKept runner :=
  reachable.invariant RunnerKept (fun isInitial => isInitial ▸ .new retention limit)
    fun stepped kept => kept.step (.of_eq stepped)

theorem RunnerKept.mem_reserved (kept : RunnerKept runner)
    (isCreated : runner.created[process]? = some ⟨id, .created⟩) : id ∈ runner.reserved := by
  obtain ⟨_, _, found, isFiller, rfl⟩ := kept.filling.filler process id isCreated
  exact (kept.processId_mem_reserved found isFiller).2

namespace InProcessRunner

theorem evictCompleted_inner (runner : InProcessRunner) (now : Nat) : (runner.evictCompleted now).inner =
      runner.inner.evictCompleted runner.retention runner.keep now := rfl

theorem reserveSlot_of_mem (now : Nat) (isReserved : id ∈ runner.reserved) :
    ∃ body, body.code = .invalidCommand ∧ runner.reserveSlot id now = .error body :=
  ⟨{ code := .invalidCommand, message := "process_id `" ++ id ++ "` is already in use" }, rfl,
    if_pos isReserved⟩

variable {held : Held} {now : Nat}

theorem acknowledgeOne_of_running
    (running : (held.find? id).any HeldSlot.isEnded = false) : acknowledgeOne now held id = held := by
  refine Table.updateWhere_eq_self fun slot member => ?_
  by_cases same : slot.processId = id
  · have found : held.find? id = some slot := Table.find?_eq_some.mpr ⟨member, same⟩
    rw [found] at running
    simp only [Option.any_some] at running
    simp [running]
  · simp [same]

theorem isEnded_acknowledgeOne {processId : String} :
    ((acknowledgeOne now held processId).find? id).any HeldSlot.isEnded =
      (held.find? id).any HeldSlot.isEnded := by
  rw [acknowledgeOne, Table.find?_updateWhere]
  cases held.find? id with
  | none => rfl
  | some =>
      simp only [Option.map_some, Option.any_some]
      split <;> rfl

theorem acknowledge_filter (processIds : List String) (now : Nat) (runner : InProcessRunner) :
    runner.acknowledge (processIds.filter fun id => (runner.inner.find? id).any HeldSlot.isEnded) now =
      runner.acknowledge processIds now := by
  suffices folds : ∀ held : Held,
      (∀ id, (held.find? id).any HeldSlot.isEnded = (runner.inner.find? id).any HeldSlot.isEnded) →
      (processIds.filter fun id => (runner.inner.find? id).any HeldSlot.isEnded).foldl
        (acknowledgeOne now) held = processIds.foldl (acknowledgeOne now) held by
    unfold acknowledge
    rw [folds runner.inner fun _ => rfl]
  induction processIds with
  | nil => exact fun _ _ => rfl
  | cons processId _ ih =>
      intro held same
      rw [List.filter_cons]
      split
      · exact ih _ fun id => isEnded_acknowledgeOne.trans (same id)
      next running =>
        rw [List.foldl_cons, acknowledgeOne_of_running ((same processId).trans (eq_false_of_ne_true running))]
        exact ih held same

end InProcessRunner

/-- A pass leaves what has not ended as it was and keeps to both bounds. Without controllers to wait for,
it drops what ended more than `ttl` ago or before `max_completed` others; with them, what none of them
acknowledged only for `keep` others that ended no earlier and stay. What has not ended cannot be
acknowledged. -/
theorem pass_keeps_to_its_bounds (reachable : (slotSystem retention limit).Reachable runner) (now : Nat) :
    (∀ id slot, runner.inner.find? id = some slot → slot.eof = false ∨ slot.completedAt = none →
      (runner.evictCompleted now).inner.find? id = some slot) ∧
    (runner.evictCompleted now).inner.count (fun slot => !slot.released && slot.isEnded) ≤
      runner.retention.maxCompleted ∧
    (∀ keep, runner.keep = some keep → (runner.evictCompleted now).inner.count HeldSlot.released ≤ keep) ∧
    (runner.keep = none → ∀ id slot time, runner.inner.find? id = some slot →
      slot.completedAt = some time → (runner.evictCompleted now).inner.find? id = none →
      runner.retention.ttl < now - time ∨ ∃ others, others.length = runner.retention.maxCompleted ∧
        runner.inner.NoEarlier HeldSlot.isEnded id time others) ∧
    (∀ keep, runner.keep = some keep → ∀ id slot time, runner.inner.find? id = some slot →
      slot.completedAt = some time → slot.acknowledged = none →
      (runner.evictCompleted now).inner.find? id = none → ∃ others, others.length = keep ∧
        (runner.evictCompleted now).inner.NoEarlier HeldSlot.released id time others) ∧
    ∀ processIds,
      runner.acknowledge (processIds.filter fun id => (runner.inner.find? id).any HeldSlot.isEnded) now =
        runner.acknowledge processIds now := by
  have kept := RunnerKept.of_reachable reachable
  refine ⟨fun id slot found running => ?_, Held.count_unreleased_le, fun keep isKeep => ?_,
    fun isKeep id slot time found ended dropped => ?_,
    fun keep isKeep id slot time found ended unacknowledged dropped => ?_,
    fun processIds => runner.acknowledge_filter processIds now⟩
  · refine Held.find?_of_running kept.kept found (running.elim (fun live => ?_) fun none => none)
    by_contra ended
    have drained := (kept.kept id slot found).drained (Option.isSome_iff_ne_none.mpr ended)
    rw [live] at drained
    cases drained
  · rw [runner.evictCompleted_inner, isKeep]
    exact Held.count_released_le kept.kept
  · rw [runner.evictCompleted_inner, isKeep] at dropped
    exact Held.dropped_without_keep found ended dropped
  · rw [runner.evictCompleted_inner, isKeep] at dropped ⊢
    exact Held.dropped_with_keep found ended unacknowledged dropped

/-- Two processes have ended and one of them may keep its handle: a pass releases the other. -/
theorem second_handle_is_released :
    ∃ runner, (slotSystem ⟨900, 1⟩ 2).Reachable runner ∧ runner.keep = some 1 ∧
      runner.inner.count HeldSlot.isEnded = 2 ∧
      (runner.evictCompleted 20).inner.count HeldSlot.released ≤ 1 := by
  obtain ⟨trace, runner, run, isKeep, ended⟩ := InProcessRunner.exists_admitted_run
    (fun _ _ => True) ⟨900, 1⟩ 2
    [.keeps 1, .requests "a" "w" false 0, .requests "b" "w" false 0, .moves 0 .creates 1,
      .moves 0 .fills 1, .moves 1 .creates 2, .moves 1 .fills 2, .drains 0, .completes 0 10, .drains 1,
      .completes 1 10]
    (fun _ runner => runner.keep = some 1 ∧ runner.inner.count HeldSlot.isEnded = 2)
    (by decide +kernel)
  have reachable : (slotSystem ⟨900, 1⟩ 2).Reachable runner := ⟨_, trace, rfl, run.of_restrict⟩
  exact ⟨runner, reachable, isKeep, ended, (pass_keeps_to_its_bounds reachable 20).2.2.1 1 isKeep⟩

/-- While the runner has room, no request names a process that is held and whose output has not ended. -/
def Fresh (runner : InProcessRunner) (label : SlotLabel) : Prop :=
  match label.event with
  | .requests id _ _ now =>
      (runner.evictCompleted now).liveCount + runner.reserved.length < runner.limit →
        (runner.inner.find? id).all HeldSlot.eof = true
  | _ => True

instance (runner : InProcessRunner) (label : SlotLabel) : Decidable (Fresh runner label) := by
  unfold Fresh
  split <;> infer_instance

theorem reserveSlot_of_not_mem (now : Nat) (unreserved : id ∉ runner.reserved) :
    (∃ reserved, runner.reserveSlot id now = .ok reserved) ↔
      (runner.evictCompleted now).liveCount + runner.reserved.length < runner.limit := by
  have unreserved : id ∉ (runner.evictCompleted now).reserved := unreserved
  rw [InProcessRunner.reserveSlot, if_neg unreserved]
  split
  next full =>
    refine iff_of_false ?_ (Nat.not_lt.mpr full)
    rintro ⟨_, granted⟩
    cases granted
  next room => exact iff_of_true ⟨_, rfl⟩ (Nat.not_le.mp room)

theorem event_of_granted (stepped : before.step event = some (.granted id, after)) :
    ∃ workspaceId managed now, event = .requests id workspaceId managed now ∧
      (before.evictCompleted now).liveCount + before.reserved.length < before.limit := by
  cases event with
  | requests _ _ _ now =>
      simp only [InProcessRunner.step] at stepped
      split at stepped
      next reserved granted =>
        cases stepped
        have unreserved : id ∉ before.reserved := fun isReserved => by
          obtain ⟨_, _, refused⟩ := InProcessRunner.reserveSlot_of_mem now isReserved
          cases granted.symm.trans refused
        exact ⟨_, _, _, rfl, (reserveSlot_of_not_mem now unreserved).mp ⟨reserved, granted⟩⟩
      · cases stepped
  | moves _ move =>
      simp only [InProcessRunner.step] at stepped
      split at stepped
      · cases move <;> simp only [InProcessRunner.moveRequest, InProcessRunner.giveBack] at stepped <;>
          repeat' (first | cases stepped | split at stepped)
      · cases stepped
  | drains | completes | rehashes =>
      simp only [InProcessRunner.step] at stepped
      split at stepped <;> cases stepped
  | acknowledges | passes | keeps => cases stepped

/-- The processes whose output has not ended are held, and their slots are not reserved. -/
structure LiveHeld (runner : InProcessRunner) : Prop where
  running : ∀ (process : Nat) (id : String), runner.created[process]? = some ⟨id, .running⟩ →
    ∃ slot, runner.inner.find? id = some slot ∧ slot.process = process
  free : ∀ id ∈ runner.reserved, ∀ slot, runner.inner.find? id = some slot → slot.eof = true

namespace LiveHeld

theorem live (held : LiveHeld runner) (kept : RunnerKept runner)
    (isRunning : runner.created[process]? = some ⟨id, .running⟩) :
    ∃ slot, runner.inner.find? id = some slot ∧ slot.process = process ∧ slot.eof = false ∧
      slot.completedAt = none := by
  obtain ⟨slot, isSlot, isProcess⟩ := held.running process id isRunning
  obtain ⟨_, isPhase, _, running, ended⟩ := kept.fits id slot isSlot
  rw [isProcess] at isPhase
  cases isRunning.symm.trans isPhase
  refine ⟨slot, isSlot, isProcess, running.mpr rfl, ?_⟩
  simpa using ended

section

variable (held : LiveHeld before)
include held

theorem thinned (kept : RunnerKept before)
    (thins : before.inner.Thinned after.inner) (created : after.created = before.created)
    (free : ∀ id ∈ after.reserved, ∀ slot, before.inner.find? id = some slot → slot.eof = true) :
    LiveHeld after where
  running process id isRunning := by
    rw [created] at isRunning
    obtain ⟨slot, isSlot, isProcess, _, unended⟩ := held.live kept isRunning
    exact ⟨slot, thins.running id slot isSlot unended, isProcess⟩
  free id isReserved left found := by
    obtain ⟨slot, isSlot, touched⟩ := thins.earlier id left found
    rw [touched.eof]
    exact free id isReserved slot isSlot

theorem setPhase (change : HeldSlot → HeldSlot)
    (lookup : ∀ id, after.inner.find? id = (before.inner.find? id).map change)
    (sameProcess : ∀ slot, (change slot).process = slot.process)
    (stays : ∀ slot, slot.eof = true → (change slot).eof = true) (reserved : after.reserved = before.reserved)
    (phases : after.created =
      before.created.modify process fun created => { created with phase := phase })
    (past : phase ≠ .running) : LiveHeld after where
  running other id isRunning := by
    rw [phases] at isRunning
    have apart : process ≠ other := by
      rintro rfl
      rw [List.getElem?_modify_eq] at isRunning
      obtain ⟨_, _, same⟩ := Option.map_eq_some_iff.mp isRunning
      exact past (CreatedProcess.mk.inj same).2
    rw [List.getElem?_modify_ne _ _ apart] at isRunning
    obtain ⟨slot, isSlot, isProcess⟩ := held.running other id isRunning
    exact ⟨change slot, by rw [lookup, isSlot, Option.map_some], (sameProcess slot).trans isProcess⟩
  free id isReserved left found := by
    rw [lookup] at found
    obtain ⟨slot, isSlot, rfl⟩ := Option.map_eq_some_iff.mp found
    exact stays slot (held.free id (reserved ▸ isReserved) slot isSlot)

theorem step (kept : RunnerKept before)
    (stepped : SlotStep before notice after) (fresh : ∀ id, notice = .granted id →
      (before.inner.find? id).all HeldSlot.eof = true) : LiveHeld after := by
  cases stepped with
  | grants _ now =>
      refine held.thinned kept (.evictCompleted kept.kept _ _ now) rfl fun id isReserved slot isSlot => ?_
      rcases List.mem_cons.mp isReserved with rfl | earlier
      · have drained := fresh _ rfl
        rwa [isSlot, Option.all_some] at drained
      · exact held.free id earlier slot isSlot
  | refuses body now | passes now =>
      exact held.thinned kept (.evictCompleted kept.kept _ _ now) rfl held.free
  | stays => exact held
  | shifts | keeps => exact ⟨held.running, held.free⟩
  | gives => exact ⟨held.running, fun id isReserved => held.free id (List.mem_of_mem_filter isReserved)⟩
  | creates =>
      refine ⟨fun process id isRunning => ?_, held.free⟩
      rcases getElem?_concat_cases isRunning with earlier | ⟨_, same⟩
      · exact held.running process id earlier
      · cases same
  | @fills index process request now found owned =>
      have isFiller : request.filling = some process := by simp [SpawnRequest.filling, owned]
      have thins : before.inner.Thinned (before.evictCompleted now).inner :=
        .evictCompleted kept.kept _ _ now
      constructor
      · intro other id isRunning
        change (before.created.modify process _)[other]? = _ at isRunning
        refine Exists.imp (fun slot => And.imp_left (Table.find?_put ..).trans) ?_
        by_cases isNew : process = other
        · subst isNew
          have isCreated := kept.filling.filling index request process found isFiller
          rw [List.getElem?_modify_eq, isCreated] at isRunning
          cases isRunning
          exact ⟨_, if_pos rfl, rfl⟩
        · rw [List.getElem?_modify_ne _ _ isNew] at isRunning
          obtain ⟨slot, isSlot, isProcess, live, unended⟩ := held.live kept isRunning
          have apart : id ≠ request.processId := by
            rintro rfl
            have drained := held.free _ (kept.processId_mem_reserved found isFiller).2 slot isSlot
            rw [live] at drained
            cases drained
          exact ⟨slot, (if_neg apart).trans (thins.running id slot isSlot unended), isProcess⟩
      · intro id isId left isLeft
        obtain ⟨isId, apart⟩ := List.mem_filter.mp isId
        have isLeft := (Table.find?_put ..).symm.trans isLeft
        rw [if_neg (by simpa using apart)] at isLeft
        obtain ⟨slot, isSlot, touched⟩ := thins.earlier id left isLeft
        rw [touched.eof]
        exact held.free id isId slot isSlot
  | @drains process id isRunning =>
      refine held.setPhase (HeldSlot.drain process) (fun _ => InProcessRunner.find?_drain) (fun slot => ?_)
        (fun slot drained => ?_) rfl rfl (by simp)
      · unfold HeldSlot.drain
        split <;> rfl
      · unfold HeldSlot.drain
        split
        · rfl
        · exact drained
  | @completes process id now isDrained =>
      refine held.setPhase (HeldSlot.complete process now) (fun _ => InProcessRunner.find?_complete)
        (fun slot => ?_) (fun slot drained => ?_) rfl rfl (by simp)
      · unfold HeldSlot.complete
        split <;> rfl
      · unfold HeldSlot.complete
        split <;> exact drained
  | acknowledges processIds now =>
      exact held.thinned kept (kept.toSlotsKept.acknowledge processIds now) rfl held.free
  | rehashes same => exact held.thinned kept (.reorder same) rfl held.free

end

theorem of_run (run : ((slotSystem retention limit).restrict Fresh).Run (.new retention limit) trace runner) :
    RunnerKept runner ∧ LiveHeld runner := by
  refine run.keeps (fun runner => RunnerKept runner ∧ LiveHeld runner) ?_
    ⟨.new retention limit, by simp [InProcessRunner.new], by simp [InProcessRunner.new]⟩
  rintro before after ⟨event, notice⟩ ⟨fresh, stepped⟩ ⟨kept, held⟩
  have moved : SlotStep before notice after := .of_eq stepped
  refine ⟨kept.step moved, held.step kept moved fun id granted => ?_⟩
  subst granted
  obtain ⟨_, _, _, rfl, room⟩ := event_of_granted stepped
  exact fresh room

end LiveHeld

theorem InProcessRunner.step_refused {body : ErrorBody} {now : Nat} (workspaceId : String)
    (managed : Bool) (refused : runner.reserveSlot id now = .error body) :
    runner.step (.requests id workspaceId managed now) =
      some (.refused body, runner.evictCompleted now) := by
  simp only [step, refused]

/-- Where requests name a live process only while the runner is full, a process whose output has not
ended is found under its id by every call, and a request for its id is refused: while it does not fill
its slot yet in any case, and later exactly while the runner is full. -/
theorem live_process_stays_held
    (run : ((slotSystem retention limit).restrict Fresh).Run (.new retention limit) trace runner)
    (isCreated : runner.created[process]? = some ⟨id, phase⟩) :
    (phase = .running → ∀ now, ∃ slot, (runner.evictCompleted now).inner.find? id = some slot ∧
      slot.process = process) ∧
    (phase = .running → ∀ workspaceId managed now,
      (∃ body, runner.step (.requests id workspaceId managed now) =
        some (.refused body, runner.evictCompleted now)) ↔
      runner.limit ≤ (runner.evictCompleted now).liveCount + runner.reserved.length) ∧
    (phase = .created → ∀ workspaceId managed now, ∃ body, body.code = .invalidCommand ∧
      runner.step (.requests id workspaceId managed now) =
        some (.refused body, runner.evictCompleted now)) := by
  obtain ⟨kept, held⟩ := LiveHeld.of_run run
  refine ⟨?_, ?_, ?_⟩
  · rintro rfl now
    obtain ⟨slot, isSlot, isProcess, _, unended⟩ := held.live kept isCreated
    exact ⟨slot, Held.find?_of_running kept.kept isSlot unended, isProcess⟩
  · rintro rfl workspaceId managed now
    have unreserved : id ∉ runner.reserved := fun isReserved => by
      obtain ⟨slot, isSlot, _, live, _⟩ := held.live kept isCreated
      cases live.symm.trans (held.free id isReserved slot isSlot)
    rw [← Nat.not_lt, ← reserveSlot_of_not_mem now unreserved]
    cases reserved : runner.reserveSlot id now with
    | ok => simp [InProcessRunner.step, reserved]
    | error body =>
        exact iff_of_true ⟨body, InProcessRunner.step_refused workspaceId managed reserved⟩ (by simp)
  · rintro rfl workspaceId managed now
    obtain ⟨body, isInvalid, refused⟩ :=
      InProcessRunner.reserveSlot_of_mem now (kept.mem_reserved isCreated)
    exact ⟨body, isInvalid, InProcessRunner.step_refused workspaceId managed refused⟩

/-- One process is held and runs while another id is requested; then the runner is full, and a second
request for the first id is refused. -/
theorem first_process_is_found :
    ∃ trace runner, ((slotSystem ⟨900, 64⟩ 2).restrict Fresh).Run (.new ⟨900, 64⟩ 2) trace runner ∧
      runner.created[0]? = some ⟨"a", .running⟩ ∧
      (∃ slot, (runner.evictCompleted 5).inner.find? "a" = some slot ∧ slot.process = 0) ∧
      ∃ body, runner.step (.requests "a" "w" false 6) =
        some (.refused body, runner.evictCompleted 6) := by
  obtain ⟨trace, runner, run, isCreated, full⟩ := InProcessRunner.exists_admitted_run Fresh ⟨900, 64⟩ 2
    [.requests "a" "w" false 0, .moves 0 .creates 1, .moves 0 .fills 1, .requests "b" "w" true 2,
      .moves 1 .prepares 3, .moves 1 .takes 3, .requests "a" "w" false 3, .moves 1 .creates 3,
      .moves 1 .fills 4]
    (fun _ runner => runner.created[0]? = some ⟨"a", .running⟩ ∧
      runner.limit ≤ (runner.evictCompleted 6).liveCount + runner.reserved.length) (by decide +kernel)
  obtain ⟨isHeld, isRefused, _⟩ := live_process_stays_held run isCreated
  exact ⟨trace, runner, run, isCreated, isHeld rfl 5, (isRefused rfl "w" false 6).mpr full⟩

/-- A second request for the id of a live process is granted, and its process takes the slot: the first
process runs on and no call finds it. -/
theorem second_request_takes_the_slot :
    ∃ trace runner, (slotSystem ⟨900, 64⟩ 2).Run (.new ⟨900, 64⟩ 2) trace runner ∧
      trace.countP (fun label => label.notice = .granted "a") = 2 ∧
      runner.created = [⟨"a", .running⟩, ⟨"a", .running⟩] ∧
      ∀ id slot, runner.inner.find? id = some slot → slot.process ≠ 0 := by
  obtain ⟨trace, runner, run, granted, created, rows⟩ := InProcessRunner.exists_admitted_run
    (fun _ _ => True) ⟨900, 64⟩ 2
    [.requests "a" "w" false 0, .moves 0 .creates 1, .moves 0 .fills 1, .requests "a" "w" false 2,
      .moves 1 .creates 3, .moves 1 .fills 4]
    (fun trace runner => trace.countP (fun label => label.notice = .granted "a") = 2 ∧
      runner.created = [⟨"a", .running⟩, ⟨"a", .running⟩] ∧
      runner.inner.rows = [{ processId := "a", workspaceId := "w", process := 1 }]) (by decide +kernel)
  refine ⟨trace, runner, run.of_restrict, granted, created, fun id slot found => ?_⟩
  have member := (Table.find?_eq_some.mp found).1
  rw [rows, List.mem_singleton] at member
  simp [member]

def requestedIds (trace : List SlotLabel) : List String :=
  trace.filterMap fun label =>
    match label.event with
    | .requests id _ _ _ => some id
    | _ => none

def noticed (notice : SlotNotice) (trace : List SlotLabel) : Nat :=
  trace.countP fun label => label.notice = notice

theorem noticed_concat (notice : SlotNotice) (trace : List SlotLabel) (label : SlotLabel) :
    noticed notice (trace ++ [label]) = noticed notice trace + if label.notice = notice then 1 else 0 := by
  unfold noticed
  rw [List.countP_append, List.countP_singleton]
  simp

theorem requestedIds_concat (trace : List SlotLabel) (label : SlotLabel) :
    requestedIds (trace ++ [label]) = requestedIds trace ++ requestedIds [label] :=
  List.filterMap_append

inductive ReservationMove (reserved : List String) : SlotNotice → List String → Prop
  | quiet : ReservationMove reserved .quiet reserved
  | refused (body : ErrorBody) : ReservationMove reserved (.refused body) reserved
  | granted {id : String} (fresh : id ∉ reserved) : ReservationMove reserved (.granted id) (id :: reserved)
  | returned {id : String} (isReserved : id ∈ reserved) :
      ReservationMove reserved (.returned id) (reserved.filter fun other => other ≠ id)
  | filled {id : String} (isReserved : id ∈ reserved) :
      ReservationMove reserved (.filled id) (reserved.filter fun other => other ≠ id)

theorem ReservationMove.of_step (kept : RunnerKept before) (stepped : SlotStep before notice after) :
    ReservationMove before.reserved notice after.reserved := by
  cases stepped with
  | grants _ _ fresh => exact .granted fresh
  | gives _ found _ owned => exact .returned (kept.reserving.owned _ _ found owned)
  | fills _ found owned => exact .filled (kept.reserving.owned _ _ found (by simp [owned]))
  | refuses body => exact .refused body
  | passes | stays | shifts | creates | drains | completes | acknowledges | keeps | rehashes =>
      exact .quiet

/-- What the labels of a run tell about the requests and the reservations of a runner. -/
structure SlotRun (limit : Nat) (trace : List SlotLabel) (runner : InProcessRunner) : Prop where
  kept : RunnerKept runner
  limited : runner.limit = limit
  balanced : ∀ id, noticed (.granted id) trace = noticed (.returned id) trace +
    noticed (.filled id) trace + if id ∈ runner.reserved then 1 else 0
  requested : ∀ id, noticed (.granted id) trace ≤ (requestedIds trace).count id
  named : ∀ (index : Nat) (request : SpawnRequest), runner.requests[index]? = some request →
    request.processId ∈ requestedIds trace
  slots : ∀ id slot, runner.inner.find? id = some slot → id ∈ requestedIds trace

namespace SlotRun

theorem balanced_step (facts : SlotRun limit trace before) (stepped : SlotStep before label.notice after)
    (id : String) :
    noticed (.granted id) (trace ++ [label]) = noticed (.returned id) (trace ++ [label]) +
      noticed (.filled id) (trace ++ [label]) + if id ∈ after.reserved then 1 else 0 := by
  have balanced := facts.balanced id
  have move := ReservationMove.of_step facts.kept stepped
  simp only [noticed_concat]
  generalize label.notice = notice at move
  generalize after.reserved = reserved at move
  cases move with
  | quiet | refused => simpa using balanced
  | @granted found fresh =>
      by_cases same : found = id
      · subst same
        simp only [fresh, if_false] at balanced
        simp [balanced]
      · simpa [same, Ne.symm same] using balanced
  | @returned found isReserved | @filled found isReserved =>
      by_cases same : found = id
      · subst same
        simp only [isReserved, if_true] at balanced
        simp only [reduceCtorEq, if_false, List.mem_filter, ne_eq, not_true, decide_false, and_false,
          Bool.false_eq_true, if_true]
        omega
      · simpa [same, Ne.symm same] using balanced

variable {ids : List String}

theorem named_step (stepped : SlotStep before notice after)
    (named : ∀ (index : Nat) (request : SpawnRequest), before.requests[index]? = some request →
      request.processId ∈ ids) (granted : ∀ id, notice = .granted id → id ∈ ids) (index : Nat)
    (request : SpawnRequest) (isRequest : after.requests[index]? = some request) :
    request.processId ∈ ids := by
  cases stepped with
  | grants =>
      rcases getElem?_concat_cases isRequest with earlier | ⟨_, rfl⟩
      · exact named index request earlier
      · exact granted _ rfl
  | shifts _ found sameId | gives _ found sameId =>
      rcases getElem?_set_cases isRequest with ⟨_, rfl⟩ | ⟨_, earlier⟩
      · exact sameId ▸ named _ _ found
      · exact named index request earlier
  | creates found owned | fills now found owned =>
      have isNamed := named _ _ found
      rcases getElem?_set_cases isRequest with ⟨_, rfl⟩ | ⟨_, earlier⟩
      · exact isNamed
      · exact named index request earlier
  | refuses | passes | stays | drains | completes | acknowledges | keeps | rehashes =>
      exact named index request isRequest

theorem slots_step (stepped : SlotStep before notice after) (kept : RunnerKept before)
    (named : ∀ (index : Nat) (request : SpawnRequest), before.requests[index]? = some request →
      request.processId ∈ ids) (slots : ∀ id slot, before.inner.find? id = some slot → id ∈ ids)
    (id : String) (slot : HeldSlot) (isSlot : after.inner.find? id = some slot) : id ∈ ids := by
  have thinned {next : Held} (thins : before.inner.Thinned next) (found : next.find? id = some slot) :
      id ∈ ids := by
    obtain ⟨earlier, isEarlier, _⟩ := thins.earlier id slot found
    exact slots id earlier isEarlier
  cases stepped with
  | grants _ now => exact thinned (.evictCompleted kept.kept _ _ now) isSlot
  | refuses body now | passes now => exact thinned (.evictCompleted kept.kept _ _ now) isSlot
  | @fills index process request now found owned =>
      change ((before.evictCompleted now).inner.put _).find? id = some slot at isSlot
      rw [Table.find?_put] at isSlot
      split at isSlot
      next same => exact same ▸ named index request found
      · exact thinned (.evictCompleted kept.kept _ _ now) isSlot
  | drains =>
      obtain ⟨earlier, isEarlier, _⟩ :=
        Option.map_eq_some_iff.mp (InProcessRunner.find?_drain.symm.trans isSlot)
      exact slots id earlier isEarlier
  | completes =>
      obtain ⟨earlier, isEarlier, _⟩ :=
        Option.map_eq_some_iff.mp (InProcessRunner.find?_complete.symm.trans isSlot)
      exact slots id earlier isEarlier
  | acknowledges processIds now => exact thinned (kept.toSlotsKept.acknowledge processIds now) isSlot
  | rehashes same => exact thinned (.reorder same) isSlot
  | stays | shifts | gives | creates | keeps => exact slots id slot isSlot

theorem step (facts : SlotRun limit trace before) (stepped : before.step event = some (notice, after)) :
    SlotRun limit (trace ++ [⟨event, notice⟩]) after := by
  have move : SlotStep before notice after := .of_eq stepped
  have granted {id : String} (isGranted : notice = .granted id) :
      requestedIds [⟨event, notice⟩] = [id] := by
    subst isGranted
    obtain ⟨_, _, _, rfl, _⟩ := event_of_granted stepped
    rfl
  have limited : after.limit = before.limit := by cases move <;> rfl
  refine ⟨facts.kept.step move, limited.trans facts.limited, facts.balanced_step move, fun id => ?_, ?_, ?_⟩
  · have requested := facts.requested id
    rw [noticed_concat, requestedIds_concat, List.count_append]
    split
    next isGranted =>
      rw [granted isGranted, List.count_singleton_self]
      omega
    · omega
  · rw [requestedIds_concat]
    refine named_step move (fun index request isRequest => ?_) fun id isGranted => ?_
    · exact List.mem_append_left _ (facts.named index request isRequest)
    · exact List.mem_append_right _ (granted isGranted ▸ List.mem_singleton_self id)
  · rw [requestedIds_concat]
    refine slots_step move facts.kept (fun index request isRequest => ?_) fun id slot isSlot => ?_
    · exact List.mem_append_left _ (facts.named index request isRequest)
    · exact List.mem_append_left _ (facts.slots id slot isSlot)

/-- A request for an id that was never requested before is for no process that is held. -/
theorem liveHeld_step (facts : SlotRun limit trace before) (held : LiveHeld before)
    (stepped : before.step event = some (notice, after))
    (distinct : (requestedIds (trace ++ [⟨event, notice⟩])).Nodup) : LiveHeld after := by
  refine held.step facts.kept (.of_eq stepped) fun id isGranted => ?_
  subst isGranted
  obtain ⟨_, _, _, rfl, _⟩ := event_of_granted stepped
  rw [requestedIds_concat, List.nodup_append] at distinct
  cases found : before.inner.find? id with
  | none => rfl
  | some slot =>
      exact absurd rfl (distinct.2.2 id (facts.slots id slot found) id (List.mem_singleton_self id))

theorem of_run (run : (slotSystem retention limit).Run (.new retention limit) trace runner) :
    SlotRun limit trace runner ∧ ((requestedIds trace).Nodup → LiveHeld runner) := by
  have atStart : SlotRun limit ([] : List SlotLabel) (.new retention limit) ∧
      ((requestedIds []).Nodup → LiveHeld (.new retention limit)) := by
    refine ⟨⟨.new retention limit, rfl, fun id => ?_, fun id => Nat.le_refl 0, ?_, ?_⟩, fun _ => ⟨?_, ?_⟩⟩
    · simp [noticed, InProcessRunner.new]
    · simp [InProcessRunner.new]
    · exact fun _ _ found => by cases found
    · simp [InProcessRunner.new]
    · simp [InProcessRunner.new]
  refine run.records (fun trace runner => SlotRun limit trace runner ∧
    ((requestedIds trace).Nodup → LiveHeld runner)) ?_ atStart
  rintro earlier before after ⟨event, notice⟩ ⟨facts, held⟩ stepped
  refine ⟨facts.step stepped, fun distinct => facts.liveHeld_step (held ?_) stepped distinct⟩
  rw [requestedIds_concat] at distinct
  exact (List.nodup_append.mp distinct).1

end SlotRun

def CreatedPhase.isLive : CreatedPhase → Bool
  | .created | .running => true
  | .drained | .ended => false

namespace LiveHeld

theorem alone (held : LiveHeld runner) (kept : RunnerKept runner) {first second : CreatedPhase}
    (isFirst : runner.created[process]? = some ⟨id, first⟩) (firstLive : first.isLive = true)
    (isSecond : runner.created[other]? = some ⟨id, second⟩) (secondLive : second.isLive = true) :
    process = other := by
  have apart {process other : Nat} (isCreated : runner.created[process]? = some ⟨id, .created⟩)
      (isRunning : runner.created[other]? = some ⟨id, .running⟩) : False := by
    obtain ⟨slot, isSlot, _, live, _⟩ := held.live kept isRunning
    have drained := held.free id (kept.mem_reserved isCreated) slot isSlot
    rw [live] at drained
    cases drained
  cases first with
  | created =>
      cases second with
      | created =>
          obtain ⟨index, request, found, isFiller, rfl⟩ := kept.filling.filler process id isFirst
          obtain ⟨position, entry, isEntry, isOther, same⟩ := kept.filling.filler other _ isSecond
          have here := kept.reserving.alone position index entry request isEntry found
            (kept.processId_mem_reserved isEntry isOther).1 (kept.processId_mem_reserved found isFiller).1
            same
          rw [here, found, Option.some.injEq] at isEntry
          subst isEntry
          exact Option.some.inj (isFiller.symm.trans isOther)
      | running => exact (apart isFirst isSecond).elim
      | drained | ended => cases secondLive
  | running =>
      cases second with
      | created => exact (apart isSecond isFirst).elim
      | running =>
          obtain ⟨_, isSlot, isProcess⟩ := held.running process id isFirst
          obtain ⟨_, isFound, isOther⟩ := held.running other id isSecond
          rw [isSlot, Option.some.injEq] at isFound
          exact isProcess.symm.trans (isFound ▸ isOther)
      | drained | ended => cases secondLive
  | drained | ended => cases firstLive

theorem countP_le (held : LiveHeld runner) (kept : RunnerKept runner) :
    runner.created.countP (fun created => created.phase.isLive) ≤
      runner.liveCount + runner.reserved.length := by
  let ids := (runner.created.filter fun created => created.phase.isLive).map CreatedProcess.processId
  have distinct : ids.Nodup := by
    rw [List.Nodup, List.pairwise_map, List.pairwise_filter, List.pairwise_iff_getElem]
    intro first second isFirst isSecond earlier firstLive secondLive same
    have place {index : Nat} (bound : index < runner.created.length) :
        runner.created[index]? = some ⟨runner.created[index].processId, runner.created[index].phase⟩ :=
      List.getElem?_eq_getElem bound
    have alone := held.alone kept (same ▸ place isFirst) firstLive (place isSecond) secondLive
    omega
  have counted : ids ⊆ runner.inner.keysWhere (fun slot => !slot.eof) ++ runner.reserved := by
    intro id isId
    obtain ⟨⟨_, phase⟩, isCreated, rfl⟩ := List.mem_map.mp isId
    obtain ⟨isCreated, isLive⟩ := List.mem_filter.mp isCreated
    obtain ⟨_, place⟩ := List.mem_iff_getElem?.mp isCreated
    cases phase with
    | created => exact List.mem_append_right _ (kept.mem_reserved place)
    | running =>
        obtain ⟨slot, isSlot, _, live, _⟩ := held.live kept place
        exact List.mem_append_left _ (Table.mem_keysWhere.mpr ⟨slot, isSlot, by simp [live]⟩)
    | drained | ended => cases isLive
  have bounded := (distinct.subperm counted).length_le
  rwa [List.length_append, Table.length_keysWhere, List.length_map, ← List.countP_eq_length_filter]
    at bounded

end LiveHeld

/-- With distinct ids, the live processes and the reserved slots stay within the limit, and each process
is counted on its own from before it is created until its output ends. A reservation is held by a request
under way, filled once or returned once. -/
theorem slots_are_counted_and_returned (distinct : (requestedIds trace).Nodup)
    (run : (slotSystem retention limit).Run (.new retention limit) trace runner) :
    runner.liveCount + runner.reserved.length ≤ limit ∧
    runner.created.countP (fun created => created.phase.isLive) ≤
      runner.liveCount + runner.reserved.length ∧
    (∀ index now notice after, runner.step (.moves index .creates now) = some (notice, after) →
      ∃ request, runner.requests[index]? = some request ∧ request.processId ∈ runner.reserved ∧
        after.created = runner.created ++ [⟨request.processId, .created⟩]) ∧
    (∀ (process : Nat) (id : String), runner.created[process]? = some ⟨id, .created⟩ →
      id ∈ runner.reserved) ∧
    (∀ (process : Nat) (id : String), runner.created[process]? = some ⟨id, .running⟩ → ∃ slot,
      runner.inner.find? id = some slot ∧ slot.process = process ∧ slot.eof = false) ∧
    (∀ id, noticed (.granted id) trace ≤ 1 ∧
      noticed (.granted id) trace = noticed (.returned id) trace + noticed (.filled id) trace +
        if id ∈ runner.reserved then 1 else 0) ∧
    ∀ id ∈ runner.reserved, ∃ (index : Nat) (request : SpawnRequest),
      runner.requests[index]? = some request ∧ request.owner.isSome = true ∧ request.processId = id := by
  obtain ⟨facts, live⟩ := SlotRun.of_run run
  have held := live distinct
  have kept := facts.kept
  refine ⟨facts.limited ▸ kept.bounded, held.countP_le kept, ?_, fun _ _ => kept.mem_reserved, ?_,
    fun id => ⟨?_, facts.balanced id⟩, kept.reserving.owner⟩
  · intro index now notice after stepped
    simp only [InProcessRunner.step] at stepped
    split at stepped
    next request found =>
      simp only [InProcessRunner.moveRequest] at stepped
      split at stepped
      next owned =>
        cases stepped
        exact ⟨request, found, kept.reserving.owned index request found (by simp [owned]), rfl⟩
      · cases stepped
    · cases stepped
  · intro process id isRunning
    obtain ⟨slot, isSlot, isProcess, isLive, _⟩ := held.live kept isRunning
    exact ⟨slot, isSlot, isProcess, isLive⟩
  · exact (facts.requested id).trans (List.nodup_iff_count_le_one.mp distinct id)

/-- A preparation that is settled and dropped, and a process that is filled. -/
theorem settled_preparation_is_returned_once : ∃ trace runner, (requestedIds trace).Nodup ∧
      (slotSystem ⟨900, 64⟩ 2).Run (.new ⟨900, 64⟩ 2) trace runner ∧
      noticed (.returned "b") trace = 1 ∧ runner.liveCount + runner.reserved.length ≤ 2 := by
  obtain ⟨trace, runner, run, distinct, returned⟩ := InProcessRunner.exists_admitted_run
    (fun _ _ => True) ⟨900, 64⟩ 2
    [.requests "a" "w" false 0, .requests "b" "w" true 0, .moves 1 .prepares 1, .requests "c" "w" true 1,
      .moves 1 .settles 2, .moves 0 .creates 2, .moves 1 .drops 3, .moves 0 .fills 3]
    (fun trace _ => (requestedIds trace).Nodup ∧ noticed (.returned "b") trace = 1) (by decide +kernel)
  exact ⟨trace, runner, distinct, run.of_restrict, returned,
    (slots_are_counted_and_returned distinct run.of_restrict).1⟩

end CodeSpace.Runner
