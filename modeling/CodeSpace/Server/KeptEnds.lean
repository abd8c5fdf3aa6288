import CodeSpace.Server.KeptRecords

namespace CodeSpace.Server

open Data Store Transition

/-! An end that the Runner keeps is acknowledged only once its record says how the process ended. -/

variable {config : Config} {env : Environment} {keeper next last : Keeper} {grown : RunnerProcesses}
  {record : ProcessRecord} {processId : String} {status : RunnerProcessStatus} {call : ProcessCall}
  {acknowledged : List String} {event : KeeperEvent} {events : List KeeperEvent}
  {trace : List KeeperLabel}

section Keepers

/-- The Runner created the process, and its record, if it has one, says that it ended. -/
def Keeper.Over (keeper : Keeper) (processId : String) : Prop :=
  keeper.runner.hasCreated processId = true ∧
    ∀ record, keeper.shared.processes.find? processId = some record → record.phase = .terminal

/-- What becomes of a gateway and its Runner: the records of the processes that the Runner created are
not made anew, and those that ended stay so. -/
structure Keeper.Later (keeper next : Keeper) : Prop where
  runner : keeper.runner.Later next.runner
  records {processId : String} {after : ProcessRecord}
    (created : keeper.runner.hasCreated processId = true)
    (stored : next.shared.processes.find? processId = some after) :
    ∃ record, keeper.shared.processes.find? processId = some record ∧
      after.controllerEpoch = record.controllerEpoch ∧
      (record.phase = .terminal → after.phase = .terminal)

/-- The processes of a Claim were created by then, and their records are of earlier Claims. -/
structure Keeper.Knows (keeper : Keeper) (claim : RunnerClaim) : Prop where
  fits : toSql claim.epoch = claim.epoch
  created {entry : InventoryEntry} (listed : entry ∈ claim.processes) :
    keeper.runner.hasCreated entry.processId = true
  earlier {entry : InventoryEntry} {record : ProcessRecord} (listed : entry ∈ claim.processes)
    (stored : keeper.shared.processes.find? entry.processId = some record) :
    record.controllerEpoch.all (· < claim.epoch) = true

/-- What holds of a reconciliation: of the processes of its Claim, those that it does not account for
are over, as are those that it acknowledges, and what it decided was so. -/
structure Reconciler.Kept (keeper : Keeper) (reconciler : Reconciler) : Prop where
  claimed : keeper.Knows reconciler.pass.claim
  acknowledged {processId : String} (listed : processId ∈ reconciler.acknowledged) :
    keeper.Over processId
  read (hasRead : reconciler.pass.stage.hasRead = true) {entry : InventoryEntry}
    (listed : entry ∈ reconciler.pass.claim.processes) :
    accountedFor reconciler.pass.records entry.processId = true ∨ keeper.Over entry.processId
  decided {decided : List (ProcessRecord × Decision)} {pair : ProcessRecord × Decision}
    (stage : reconciler.pass.stage = .applies decided) (isPair : pair ∈ decided) :
    pair.2.Told keeper.runner pair.1.processId

structure Keeper.Kept (keeper : Keeper) : Prop where
  fits : keeper.shared.runner.stored = keeper.shared.runner
  apart {processId : String} (never : processId ∈ keeper.runner.refused) :
    keeper.runner.hasCreated processId = false
  records {processId : String} {record : ProcessRecord}
    (stored : keeper.shared.processes.find? processId = some record) :
    RecordKept keeper.runner keeper.shared.runner record
  exits {processId : String} (waits : processId ∈ keeper.exits) :
    keeper.runner.hasCreated processId = true
  recorded {processId : String} (isRecorded : keeper.recorded = some processId) : keeper.Over processId
  claims {claim : RunnerClaim} (given : claim ∈ keeper.shared.claims) : keeper.Knows claim
  reconciler {reconciler : Reconciler} (runs : keeper.reconciler = some reconciler) :
    reconciler.Kept keeper

variable {claim : RunnerClaim} {reconciler : Reconciler}

theorem Keeper.Over.later (isOver : keeper.Over processId) (moved : keeper.Later next) :
    next.Over processId := by
  refine ⟨moved.runner.created isOver.1, fun record stored => ?_⟩
  obtain ⟨before, found, _, terminal⟩ := moved.records isOver.1 stored
  exact terminal (isOver.2 before found)

theorem Keeper.Knows.later (knows : keeper.Knows claim) (moved : keeper.Later next) : next.Knows claim where
  fits := knows.fits
  created listed := moved.runner.created (knows.created listed)
  earlier listed stored := by
    obtain ⟨_, found, same, _⟩ := moved.records (knows.created listed) stored
    rw [same]
    exact knows.earlier listed found

theorem Reconciler.Kept.later (kept : reconciler.Kept keeper)
    (moved : keeper.Later next) : reconciler.Kept next where
  claimed := kept.claimed.later moved
  acknowledged listed := (kept.acknowledged listed).later moved
  read hasRead _ listed := (kept.read hasRead listed).imp_right fun isOver => isOver.later moved
  decided stage isPair := (kept.decided stage isPair).later moved.runner

theorem Keeper.Kept.later (kept : keeper.Kept) (moved : keeper.Later next)
    (sameRunner : next.shared.runner = keeper.shared.runner)
    (apart : ∀ processId ∈ next.runner.refused, next.runner.hasCreated processId = false)
    (records : ∀ processId record, next.shared.processes.find? processId = some record →
      RecordKept next.runner next.shared.runner record)
    (exits : ∀ processId ∈ next.exits, processId ∈ keeper.exits ∨ next.runner.hasCreated processId = true)
    (recorded : ∀ processId, next.recorded = some processId →
      keeper.recorded = some processId ∨ next.Over processId)
    (claims : ∀ claim ∈ next.shared.claims, claim ∈ keeper.shared.claims ∨ next.Knows claim)
    (reconciles : ∀ reconciler, next.reconciler = some reconciler →
      keeper.reconciler = some reconciler ∨ reconciler.Kept next) : next.Kept where
  fits := by
    rw [sameRunner]
    exact kept.fits
  apart never := apart _ never
  records stored := records _ _ stored
  exits waits := (exits _ waits).elim (fun before => moved.runner.created (kept.exits before)) id
  recorded isRecorded :=
    (recorded _ isRecorded).elim (fun before => (kept.recorded before).later moved) id
  claims given := (claims _ given).elim (fun before => (kept.claims before).later moved) id
  reconciler runs := (reconciles _ runs).elim (fun before => (kept.reconciler before).later moved) id

theorem Keeper.Later.of_records (moved : keeper.runner.Later next.runner)
    (same : next.shared.processes = keeper.shared.processes) : keeper.Later next where
  runner := moved
  records _ stored := ⟨_, same ▸ stored, rfl, id⟩

theorem Keeper.calls_eq_some {after : ProcessRecord}
    (stored : (keeper.calls call).shared.processes.find? processId = some after) :
    ∃ record, keeper.shared.processes.find? processId = some record ∧ after = record.apply call := by
  obtain ⟨record, found, same⟩ :=
    Option.map_eq_some_iff.mp ((ProcessRecords.find?_apply ..).symm.trans stored)
  exact ⟨record, found, same.symm⟩

theorem Keeper.calls_later (keeper : Keeper) (call : ProcessCall) : keeper.Later (keeper.calls call) where
  runner := .refl _
  records created stored := by
    obtain ⟨record, found, rfl⟩ := keeper.calls_eq_some stored
    exact ⟨record, found, (record.apply_applied call).request.1,
      fun terminal => (record.apply_terminal call terminal).1⟩

namespace Keeper.Kept

section

variable (kept : keeper.Kept)
include kept

theorem withRunner (moved : keeper.runner.Later grown)
    (apart : ∀ processId ∈ grown.refused, grown.hasCreated processId = false)
    (created : ∀ processId record, keeper.shared.processes.find? processId = some record →
      grown.hasCreated processId = true → keeper.runner.hasCreated processId = true ∨
        record.runner = keeper.shared.runner ∧ record.controllerEpoch.all (· ≤ grown.epoch) = true) :
    Keeper.Kept { keeper with runner := grown } := by
  refine kept.later (.of_records moved rfl) rfl apart (fun processId record stored => ?_)
    (fun _ => .inl) (fun _ => .inl) (fun _ => .inl) (fun _ => .inl)
  have named := (Table.find?_eq_some.mp stored).2
  subst named
  exact (kept.records stored).later moved (created record.processId record stored)

theorem calls (justified : ∀ record, keeper.shared.processes.find? record.processId = some record →
      Justified keeper.runner keeper.shared.runner record call) : (keeper.calls call).Kept := by
  refine kept.later (keeper.calls_later call) rfl (fun _ => kept.apart) (fun processId after stored => ?_)
    (fun _ => .inl) (fun _ => .inl) (fun _ => .inl) (fun _ => .inl)
  obtain ⟨record, found, rfl⟩ := keeper.calls_eq_some stored
  have named := (Table.find?_eq_some.mp found).2
  subst named
  exact (kept.records found).apply (justified record found)

theorem aside (runner : next.runner = keeper.runner)
    (processes : next.shared.processes = keeper.shared.processes)
    (ours : next.shared.runner = keeper.shared.runner) (exits : ∀ processId ∈ next.exits,
      processId ∈ keeper.exits ∨ keeper.runner.hasCreated processId = true)
    (recorded : next.recorded = keeper.recorded ∨ next.recorded = none)
    (claims : next.shared.claims ⊆ keeper.shared.claims)
    (reconciles : ∀ reconciler, next.reconciler = some reconciler →
      keeper.reconciler = some reconciler ∨ reconciler.Kept next) : next.Kept := by
  refine kept.later (.of_records (runner ▸ .refl _) processes) ours ?_ (fun processId record stored => ?_)
    (fun processId waits => ?_) (fun processId is => ?_) (fun _ given => .inl (claims given)) reconciles
  · rw [runner]
    exact fun _ => kept.apart
  · rw [processes] at stored
    rw [runner, ours]
    exact kept.records stored
  · rw [runner]
    exact exits processId waits
  · rcases recorded with same | gone
    · exact .inl (same.symm.trans is)
    · cases gone.symm.trans is

theorem creates (stepped : keeper.step config (.creates processId) = some (acknowledged, next)) :
    next.Kept := by
  obtain ⟨allowed, same⟩ := Option.ite_none_left_eq_some.mp stepped
  cases same
  simp only [Bool.or_eq_true, not_or, decide_eq_true_eq, Bool.not_eq_true] at allowed
  obtain ⟨⟨fresh, allowed⟩, sent⟩ := allowed
  have apart {other : String} (created : keeper.runner.hasCreated other = true) : other ≠ processId := by
    rintro rfl
    cases fresh.symm.trans created
  have known {other : String} (differs : other ≠ processId) : (keeper.runner.known.insert processId
      { processId := processId, running := true }).lookup other = keeper.runner.known.lookup other :=
    AList.lookup_insert_ne differs
  refine kept.withRunner ⟨fun {other status} found => ?_, fun {other} created holds => ?_,
    List.Subset.refl _, Nat.le_refl _⟩ (fun other never => ?_) fun other record stored created => ?_
  · have differs := apart (RunnerProcesses.hasCreated_iff.mpr ⟨status, found⟩)
    exact ⟨status, (known differs).trans found, fun _ => rfl⟩
  · exact (List.mem_cons.mp holds).resolve_left (apart created)
  · have differs : other ≠ processId := by
      rintro rfl
      exact allowed never
    simpa [RunnerProcesses.hasCreated, known differs] using kept.apart never
  · by_cases same : other = processId
    · subst same
      cases epoch : record.controllerEpoch with
      | none | some => exact .inr (by simpa [stored, epoch] using sent)
    · left
      simpa [RunnerProcesses.hasCreated, known same] using created

theorem ends (stepped : keeper.step config (.ends status) = some (acknowledged, next)) : next.Kept := by
  obtain ⟨possible, same⟩ := Option.ite_none_right_eq_some.mp stepped
  cases same
  obtain ⟨was, known, running⟩ := (Option.any_eq_true _ _).mp (Bool.and_eq_true_iff.mp possible).2
  have lookup {other : String} (differs : other ≠ status.processId) :
      (keeper.runner.known.insert status.processId status).lookup other =
        keeper.runner.known.lookup other := AList.lookup_insert_ne differs
  have created (other : String) :
      RunnerProcesses.hasCreated { keeper.runner with
        known := keeper.runner.known.insert status.processId status } other =
        keeper.runner.hasCreated other := by
    by_cases same : other = status.processId
    · subst same
      simp [RunnerProcesses.hasCreated, known]
    · simp [RunnerProcesses.hasCreated, lookup same]
  refine kept.withRunner ⟨fun {other before} found => ?_, fun _ => id, List.Subset.refl _,
    Nat.le_refl _⟩ (fun other never => (created other).trans (kept.apart never))
    fun other record stored isCreated => .inl (by rwa [created] at isCreated)
  by_cases same : other = status.processId
  · subst same
    cases known.symm.trans found
    refine ⟨status, AList.lookup_insert .., fun isOver => ?_⟩
    cases running.symm.trans isOver
  · exact ⟨before, (lookup same).trans found, fun _ => rfl⟩

theorem drops (stepped : keeper.step config (.drops processId) = some (acknowledged, next)) :
    next.Kept := by
  obtain ⟨_, same⟩ := Option.ite_none_right_eq_some.mp stepped
  cases same
  exact kept.withRunner ⟨fun found => ⟨_, found, fun _ => rfl⟩,
    fun _ holds => (List.mem_filter.mp holds).1, List.Subset.refl _, Nat.le_refl _⟩
    (fun _ => kept.apart) fun _ _ _ => .inl

theorem refuses (recalled : Except String (List (String × Recalled)))
    (truly : ∀ remembered, recalled = .ok remembered → ∀ entry ∈ remembered,
      keeper.runner.recalls entry.1 entry.2 = true) :
    Keeper.Kept { keeper with runner := keeper.runner.refuses recalled } := by
  have created : (keeper.runner.refuses recalled).hasCreated = keeper.runner.hasCreated := by
    cases recalled <;> rfl
  refine kept.withRunner (RunnerProcesses.refuses_later recalled) (fun processId never => ?_)
    fun other record stored isCreated => .inl (by rwa [created] at isCreated)
  rw [created]
  cases recalled with
  | error => exact kept.apart never
  | ok remembered =>
      rcases List.mem_append.mp never with now | before
      · obtain ⟨⟨_, answer⟩, chosen, rfl⟩ := List.mem_map.mp now
        obtain ⟨listed, absent⟩ := List.mem_filter.mp chosen
        have true_ := truly remembered rfl _ listed
        cases answer with
        | notReceived | refused => simpa [RunnerProcesses.recalls] using true_
        | held | dropped => simp at absent
      · exact kept.apart before

theorem claimed (stepped : keeper.step config (.claims claim) = some (acknowledged, next)) :
    next.Kept := by
  obtain ⟨possible, same⟩ := Option.ite_none_right_eq_some.mp stepped
  cases same
  simp only [Bool.and_eq_true, decide_eq_true_eq, List.all_eq_true] at possible
  obtain ⟨⟨newer, fits⟩, lists⟩ := possible
  have moved : keeper.runner.Later { keeper.runner with epoch := claim.epoch } :=
    ⟨fun found => ⟨_, found, fun _ => rfl⟩, fun _ => id, List.Subset.refl _, Nat.le_of_lt newer⟩
  have created {entry : InventoryEntry} (listed : entry ∈ claim.processes) :
      keeper.runner.hasCreated entry.processId = true := by
    obtain ⟨_, known⟩ := Bool.and_eq_true_iff.mp (lists entry listed)
    cases found : keeper.runner.known.lookup entry.processId with
    | none => simp [found] at known
    | some status => exact RunnerProcesses.hasCreated_iff.mpr ⟨status, found⟩
  refine kept.later (.of_records moved rfl) rfl (fun _ => kept.apart)
    (fun processId record stored => (kept.records stored).later moved .inl) (fun _ => .inl)
    (fun _ => .inl) (fun other given => ?_) (fun _ => .inl)
  rcases List.mem_cons.mp given with rfl | before
  · refine .inr ⟨fits, created, fun {entry record} listed stored => ?_⟩
    have sent := ((kept.records stored).sent (by
      rw [(Table.find?_eq_some.mp stored).2]
      exact created listed)).2
    cases epoch : record.controllerEpoch with
    | none => rfl
    | some =>
        simp only [epoch, Option.all_some, decide_eq_true_eq] at sent ⊢
        exact Nat.lt_of_le_of_lt sent newer
  · exact .inl before

theorem dispatches (stepped : keeper.step config (.dispatches record) = some (acknowledged, next)) :
    next.Kept := by
  obtain ⟨allowed, stepped⟩ := Option.ite_none_left_eq_some.mp stepped
  simp only [Bool.or_eq_true, not_or, decide_eq_true_eq, Bool.not_eq_true, ne_eq, not_not,
    Option.isSome_eq_false_iff, Option.isNone_iff_eq_none] at allowed
  obtain ⟨⟨⟨⟨fresh, _⟩, dispatching⟩, unended⟩, unreleased⟩ := allowed
  split at stepped
  next recorded =>
    cases stepped
    have inserted := (ProcessRecords.recordDispatch_eq_ok recorded).2
    refine kept.later ⟨.refl _, fun {other after} created stored => ?_⟩ rfl (fun _ => kept.apart)
      (fun other after stored => ?_) (fun _ => .inl) (fun _ => .inl) (fun _ => .inl) (fun _ => .inl)
    · dsimp only at stored
      rw [Table.find?_insert? inserted, if_neg] at stored
      · exact ⟨after, stored, rfl, id⟩
      · rintro rfl
        cases fresh.symm.trans created
    · dsimp only at stored
      rw [Table.find?_insert? inserted] at stored
      split at stored
      · cases stored
        refine ⟨fun isSome => ?_, fun _ => unreleased, fun created => ?_, fun terminal => ?_⟩
        · simp [ProcessRecord.stored, unended] at isSome
        · cases fresh.symm.trans created
        · cases dispatching.symm.trans terminal
      · exact kept.records stored
  · contradiction

theorem refusalAnswered (fresh : keeper.runner.hasCreated processId = false)
    (stepped : keeper.step config (.refusalAnswered processId) = some (acknowledged, next)) :
    next.Kept := by
  rw [Keeper.step, fresh, if_neg Bool.false_ne_true] at stepped
  cases stepped
  have moved : keeper.runner.Later
      { keeper.runner with refused := processId :: keeper.runner.refused } :=
    ⟨fun found => ⟨_, found, fun _ => rfl⟩, fun _ => id, List.subset_cons_self _ _, Nat.le_refl _⟩
  refine (kept.withRunner moved (fun other never => ?_) fun _ _ _ => .inl).calls
    fun record _ => (List.mem_cons_self : processId ∈ processId :: keeper.runner.refused)
  rcases List.mem_cons.mp never with rfl | before
  · exact fresh
  · exact kept.apart before

theorem records_over (created : keeper.runner.hasCreated processId = true)
    (termination : Option ProcessTermination) (exitCode signal : Option Int) (total : Option Nat) :
    (keeper.calls (.recordEnd keeper.shared.runner processId
      (.ended termination exitCode signal total))).Over processId := by
  refine ⟨created, fun after stored => ?_⟩
  obtain ⟨_, found, rfl⟩ := keeper.calls_eq_some stored
  have named := (Table.find?_eq_some.mp found).2
  subst named
  exact (kept.records found).recordEnd_terminal created

theorem recordsExit (written : Bool) {rest : List String}
    (waits : keeper.exits = processId :: rest) (termination : Option ProcessTermination)
    (exitCode signal : Option Int) (total : Option Nat)
    (justified : ∀ record, Justified keeper.runner keeper.shared.runner record
      (.recordEnd keeper.shared.runner processId (.ended termination exitCode signal total))) :
    (keeper.recordsExit processId rest (.ended termination exitCode signal total) written).Kept := by
  have created : keeper.runner.hasCreated processId = true := kept.exits (by simp [waits])
  have fewer (other : String) (remains : other ∈ rest) : other ∈ keeper.exits := by
    simp [waits, remains]
  cases written with
  | true =>
      refine (kept.calls fun record _ => justified record).later (.of_records (.refl _) rfl) rfl
        (fun _ => kept.apart) (fun _ _ => (kept.calls fun record _ => justified record).records)
        (fun other remains => .inl (fewer other remains)) (fun other isRecorded => .inr ?_)
        (fun _ => .inl) (fun _ => .inl)
      cases isRecorded
      exact kept.records_over created termination exitCode signal total
  | false =>
      exact kept.later (.of_records (.refl _) rfl) rfl (fun _ => kept.apart) (fun _ _ => kept.records)
        (fun other remains => .inl (fewer other remains)) (fun _ => .inl) (fun _ => .inl) (fun _ => .inl)

theorem reads (knows : keeper.Knows claim) {entry : InventoryEntry} (listed : entry ∈ claim.processes) :
    accountedFor (keeper.shared.processes.recordsToReconcile keeper.shared.approvals
      keeper.shared.runner claim.epoch) entry.processId = true ∨ keeper.Over entry.processId := by
  have created := knows.created listed
  cases stored : keeper.shared.processes.find? entry.processId with
  | none =>
      refine .inr ⟨created, fun record found => ?_⟩
      cases stored.symm.trans found
  | some record =>
      obtain ⟨member, named⟩ := Table.find?_eq_some.mp stored
      by_cases terminal : record.phase = .terminal
      · refine .inr ⟨created, fun other found => ?_⟩
        cases stored.symm.trans found
        exact terminal
      · left
        have holds := kept.records stored
        rw [← named] at created
        have own := (holds.sent created).1
        have earlier : record.controllerEpoch.any (toSql claim.epoch ≤ ·) = false := by
          have sent := knows.earlier listed stored
          rw [knows.fits]
          cases epoch : record.controllerEpoch with
          | none => rfl
          | some => simpa [epoch] using sent
        have unended : record.phase ∈ [ProcessPhase.dispatching, .running, .unknown] := by
          cases phase : record.phase <;> simp_all
        refine List.any_eq_true.mpr ⟨record, List.mem_filter.mpr ⟨member, ?_⟩, by simp [terminal, named]⟩
        simp [unended, holds.unreleased own, earlier]

end

/-- The gateway once a section of its reconciliation was answered and has written, with the
reconciliation still where it was. -/
structure Written (keeper next middle : Keeper) : Prop where
  kept : middle.Kept
  later : keeper.Later middle
  runner : middle.runner = next.runner
  processes : middle.shared.processes = next.shared.processes
  ours : middle.shared.runner = keeper.shared.runner
  claims : middle.shared.claims = keeper.shared.claims
  exits : middle.exits = keeper.exits
  recorded : middle.recorded = keeper.recorded
  reconciler : middle.reconciler = keeper.reconciler

theorem answered (kept : keeper.Kept) (truly : keeper.isTold env reconciler.pass = true) :
    Keeper.Kept { keeper with runner := (keeper.proceed config env reconciler).runner } ∧
      keeper.runner.Later (keeper.proceed config env reconciler).runner := by
  dsimp only [Keeper.proceed]
  split
  next asks =>
    refine ⟨kept.refuses env.answers.recalled fun remembered is entry listed => ?_,
      RunnerProcesses.refuses_later _⟩
    simp only [Keeper.isTold, asks, is, List.all_eq_true] at truly
    exact truly entry listed
  · exact ⟨kept, .refl _⟩

theorem writes (kept : keeper.Kept)
    (runs : keeper.reconciler = some reconciler) (truly : keeper.isTold env reconciler.pass = true) :
    ∃ middle, Written keeper (keeper.proceed config env reconciler) middle := by
  obtain ⟨answered, moved⟩ :
      Keeper.Kept { keeper with runner := (keeper.proceed config env reconciler).runner } ∧
        keeper.runner.Later (keeper.proceed config env reconciler).runner := kept.answered truly
  have unwritten (same : (reconciler.pass.advance config keeper.shared env).shared.processes =
      keeper.shared.processes) :
      ∃ middle, Written keeper (keeper.proceed config env reconciler) middle :=
    ⟨_, answered, .of_records moved rfl, rfl, same.symm, rfl, rfl, rfl, rfl, rfl⟩
  have called {call : ProcessCall}
      (written : (reconciler.pass.advance config keeper.shared env).shared.processes =
        keeper.shared.processes.apply call)
      (justified : ∀ record, Justified (keeper.proceed config env reconciler).runner
        keeper.shared.runner record call) :
      ∃ middle, Written keeper (keeper.proceed config env reconciler) middle :=
    ⟨_, answered.calls fun record _ => justified record,
      ⟨moved, (keeper.calls_later call).records⟩, rfl, written.symm, rfl, rfl, rfl, rfl, rfl⟩
  rcases reconciler.pass.advance_processes with
    same | ⟨lost, loss, lose⟩ | ⟨record, decision, rest, stage, writes⟩
  · exact unwritten same
  · exact called lose fun _ => trivial
  · have told : decision.Told (keeper.proceed config env reconciler).runner record.processId :=
      ((kept.reconciler runs).decided stage List.mem_cons_self).later moved
    rcases told.writes env.unwritten.isNone keeper.shared.processes with same | ⟨call, same, justified⟩
    · exact unwritten (writes.trans same)
    · exact called (writes.trans same) justified

theorem decides (asks : reconciler.pass.stage = .asks) (truly : keeper.isTold env reconciler.pass = true)
    {attempts : List (String × Attempt)} {losses : Losses} :
    (decideFor config.devguard keeper.shared.runner losses
      (recallFor reconciler.pass.claim keeper.shared.runner reconciler.pass.records env.answers.recalled)
      attempts record).Told (keeper.proceed config env reconciler).runner record.processId := by
  have listed {answer : Recalled} (answered : Answered (recallFor reconciler.pass.claim
      keeper.shared.runner reconciler.pass.records env.answers.recalled) record.processId answer) :
      ∃ remembered, env.answers.recalled = .ok remembered ∧ (record.processId, answer) ∈ remembered := by
    obtain ⟨remembered, is, found⟩ := answered
    unfold recallFor at is
    split at is
    · cases is
      contradiction
    · obtain ⟨_, _, same, _⟩ := List.lookup_eq_some_iff.mp found
      exact ⟨remembered, is, by simp [same]⟩
  have grown : (keeper.proceed config env reconciler).runner =
      keeper.runner.refuses env.answers.recalled := by
    simp only [Keeper.proceed, asks]
  rw [grown]
  refine (decideFor_decided ..).told (fun answer answered => ?_) fun answer answered absent => ?_
  · obtain ⟨remembered, is, member⟩ := listed answered
    simp only [Keeper.isTold, asks, is, List.all_eq_true] at truly
    rw [is]
    cases answer <;> exact truly _ member
  · obtain ⟨_, is, member⟩ := listed answered
    rw [is]
    refine List.mem_append_left _ (List.mem_map.mpr ⟨_, List.mem_filter.mpr ⟨member, ?_⟩, rfl⟩)
    simpa using absent

/-- What a section of a reconciliation adds to those that it acknowledges is over. -/
theorem acknowledges (kept : keeper.Kept)
    (runs : keeper.reconciler = some reconciler) (truly : keeper.isTold env reconciler.pass = true)
    (listed : processId ∈ reconciler.pass.acknowledges env) :
    (keeper.proceed config env reconciler).Over processId := by
  obtain ⟨middle, written⟩ : ∃ middle, Written keeper (keeper.proceed config env reconciler) middle :=
    kept.writes runs truly
  have moved : middle.Later (keeper.proceed config env reconciler) :=
    .of_records (written.runner ▸ .refl _) written.processes.symm
  rcases Pass.mem_acknowledges listed with ⟨record, status, rest, stage, isWritten, rfl⟩ |
    ⟨hasRead, entry, isEntry, rfl, unaccounted⟩
  · obtain ⟨named, now, known, _⟩ := (kept.reconciler runs).decided stage List.mem_cons_self
    have created := RunnerProcesses.hasCreated_iff.mpr ⟨now, known⟩
    have recorded := kept.records_over created status.termination status.exitCode status.signal
      (some status.outputTotal)
    refine ⟨written.runner ▸ written.later.runner.created created, fun after stored => ?_⟩
    refine recorded.2 after ?_
    rw [← stored]
    simp only [Keeper.proceed, Pass.advance, stage, Decision.record, isWritten, if_true, named]
    rfl
  · rcases (kept.reconciler runs).read hasRead isEntry with accounted | isOver
    · cases unaccounted.symm.trans accounted
    · exact (isOver.later written.later).later moved

theorem proceed (kept : keeper.Kept)
    (runs : keeper.reconciler = some reconciler) (truly : keeper.isTold env reconciler.pass = true) :
    (keeper.proceed config env reconciler).Kept := by
  obtain ⟨middle, written⟩ : ∃ middle, Written keeper (keeper.proceed config env reconciler) middle :=
    kept.writes runs truly
  obtain ⟨sameClaim, sameClaims⟩ :
      (reconciler.pass.advance config keeper.shared env).stage.claim = reconciler.pass.claim ∧
        (reconciler.pass.advance config keeper.shared env).shared.claims = keeper.shared.claims :=
    reconciler.pass.advance_claim
  have ours : (reconciler.pass.advance config keeper.shared env).shared.runner = middle.shared.runner :=
    (reconciler.pass.advance_surroundings keeper.shared).runner.trans written.ours.symm
  have was : reconciler.Kept middle := written.kept.reconciler (written.reconciler.trans runs)
  have moved : middle.Later (keeper.proceed config env reconciler) :=
    .of_records (written.runner ▸ .refl _) written.processes.symm
  refine written.kept.later moved ours ?_ (fun processId record stored => ?_)
    (fun processId waits => .inl (written.exits ▸ waits))
    (fun processId is => .inl (written.recorded.trans is))
    (fun claim given => .inl ?_) fun next is => .inr ?_
  · rw [← written.runner]
    exact fun _ => written.kept.apart
  · rw [← written.processes] at stored
    rw [← written.runner, show (keeper.proceed config env reconciler).shared.runner = _ from ours]
    exact written.kept.records stored
  · rw [written.claims, ← sameClaims]
    exact given
  · cases is
    constructor
    case claimed =>
      rw [sameClaim]
      exact was.claimed.later moved
    case acknowledged =>
      intro processId listed
      rcases List.mem_append.mp listed with before | now
      · exact (was.acknowledged before).later moved
      · exact kept.acknowledges runs truly now
    case read =>
      intro hasRead entry isEntry
      rw [sameClaim] at isEntry
      by_cases reads : reconciler.pass.stage = .reads
      · rw [reconciler.pass.advance_reads reads hasRead]
        refine (kept.reads (kept.reconciler runs).claimed isEntry).imp_right fun isOver => ?_
        exact (isOver.later written.later).later moved
      · rw [(reconciler.pass.advance_given keeper.shared reads).1]
        exact (was.read (reconciler.pass.advance_hasRead reads hasRead) isEntry).imp_right
          fun isOver => isOver.later moved
    case decided =>
      intro decided pair stage isPair
      rcases reconciler.pass.advance_applies stage with ⟨head, before⟩ | ⟨asks, decides⟩
      · exact (was.decided before (List.mem_cons_of_mem _ isPair)).later moved.runner
      · obtain ⟨_, _, same⟩ := decides pair isPair
        rw [same]
        exact Keeper.Kept.decides asks truly

end Keeper.Kept

end Keepers

/-- A status that the Runner does not answer is one of a process that it no longer holds, a refusal is one
of a process that it did not create, and no operator releases a record of this Runner. -/
def Keeper.isFirm (keeper : Keeper) : KeeperEvent → Bool
  | .refusalAnswered processId => !keeper.runner.hasCreated processId
  | .follows none _ => keeper.exits.head?.all (· ∉ keeper.runner.held)
  | .releasesRecord processId _ =>
      (keeper.shared.processes.find? processId).all fun record => record.runner ≠ keeper.shared.runner
  | _ => true

/-- The runs in which every exit is answered for while the Runner holds the process, and every refusal is
of a process that it did not create. -/
def firmKeepers (config : Config) : System Keeper KeeperLabel :=
  (keeperSystem config).restrict fun keeper label => keeper.isFirm label.event = true

namespace Keeper.Kept

theorem initial (isInitial : (keeperSystem config).initial keeper) : keeper.Kept := by
  obtain ⟨_, _, fits, rfl⟩ := isInitial
  exact ⟨fits, nofun, nofun, nofun, nofun, nofun, nofun⟩

theorem follows {answer : Option RunnerProcessStatus} {written : Bool} (kept : keeper.Kept)
    (firm : keeper.isFirm (.follows answer written) = true)
    (stepped : keeper.step config (.follows answer written) = some (acknowledged, next)) :
    next.Kept := by
  dsimp only [Keeper.step] at stepped
  split at stepped
  next processId rest waits _ =>
    cases answer with
    | some =>
        obtain ⟨tells, stepped⟩ := Option.ite_none_right_eq_some.mp stepped
        split at stepped
        · cases stepped
          exact kept.aside rfl rfl rfl (fun other remains => .inl (by simp [waits, remains])) (.inl rfl)
            (fun _ => id) fun _ => .inl
        next isOver =>
          cases stepped
          obtain ⟨now, known, _, same⟩ := RunnerProcesses.tells_iff.mp tells
          obtain ⟨_, ended, termination, exitCode, signal⟩ :=
            RunnerProcessStatus.endsAs_iff.mp (same (Bool.not_eq_true _ ▸ isOver))
          exact kept.recordsExit written waits _ _ _ _
            fun _ => ⟨now, known, fun _ => ⟨ended, termination, exitCode, signal⟩⟩
    | none =>
        cases stepped
        have created : keeper.runner.hasCreated processId = true := kept.exits (by simp [waits])
        obtain ⟨now, known⟩ := RunnerProcesses.hasCreated_iff.mp created
        have gone : processId ∉ keeper.runner.held := by simpa [Keeper.isFirm, waits] using firm
        exact kept.recordsExit written waits _ _ _ _ fun _ => ⟨now, known, fun held => absurd held gone⟩
  · contradiction

theorem step {label : KeeperLabel} (kept : keeper.Kept)
    (stepped : (firmKeepers config).step keeper label next) : next.Kept := by
  obtain ⟨event, _⟩ := label
  obtain ⟨firm, stepped⟩ := stepped
  cases event with
  | creates => exact kept.creates stepped
  | ends => exact kept.ends stepped
  | drops => exact kept.drops stepped
  | claims => exact kept.claimed stepped
  | links =>
      obtain ⟨_, same⟩ := Option.ite_none_right_eq_some.mp stepped
      cases same
      exact kept.aside rfl rfl rfl (fun _ => .inl) (.inl rfl) (fun _ => id) fun _ => .inl
  | dispatches => exact kept.dispatches stepped
  | startAnswered | observesOutput | losesRunner =>
      cases stepped
      exact kept.calls fun _ _ => trivial
  | refusalAnswered => exact kept.refusalAnswered (by simpa [Keeper.isFirm] using firm) stepped
  | exits =>
      obtain ⟨created, same⟩ := Option.ite_none_right_eq_some.mp stepped
      cases same
      refine kept.aside rfl rfl rfl (fun other waits => ?_) (.inl rfl) (fun _ => id) fun _ => .inl
      rcases List.mem_append.mp waits with before | now
      · exact .inl before
      · rw [List.mem_singleton.mp now]
        exact .inr created
  | follows => exact kept.follows firm stepped
  | acknowledgesExit =>
      obtain ⟨_, _, same⟩ := Option.map_eq_some_iff.mp stepped
      cases same
      exact kept.aside rfl rfl rfl (fun _ => .inl) (.inr rfl) (fun _ => id) fun _ => .inl
  | reconciles =>
      obtain ⟨possible, same⟩ := Option.ite_none_right_eq_some.mp stepped
      cases same
      have given := kept.claims (of_decide_eq_true (Bool.and_eq_true_iff.mp possible).1)
      refine kept.aside rfl rfl rfl (fun _ => .inl) (.inl rfl) (fun _ => id) fun reconciler is => .inr ?_
      cases is
      exact ⟨given.later (.of_records (.refl _) rfl), fun listed => by contradiction,
        fun hasRead => by contradiction, fun stage => by contradiction⟩
  | proceeds =>
      dsimp only [keeperSystem, Keeper.step] at stepped
      split at stepped
      next runs =>
        obtain ⟨truly, same⟩ := Option.ite_none_right_eq_some.mp stepped
        cases same
        exact kept.proceed runs truly
      · contradiction
  | acknowledgesPass =>
      obtain ⟨_, _, same⟩ := Option.map_eq_some_iff.mp stepped
      cases same
      exact kept.aside rfl rfl rfl (fun _ => .inl) (.inl rfl) (fun _ => id) fun _ is => by contradiction
  | releasesRecord =>
      cases stepped
      refine kept.calls fun record stored own => ?_
      subst own
      simpa [Keeper.isFirm, stored] using firm
  | reopens =>
      cases stepped
      exact kept.aside rfl rfl rfl (fun _ waits => by contradiction) (.inr rfl)
        (fun _ given => by contradiction) fun _ is => by contradiction

/-- Whatever the gateway acknowledges is over. -/
theorem acknowledged_over (kept : keeper.Kept)
    (stepped : keeper.step config event = some (acknowledged, next)) (listed : processId ∈ acknowledged) :
    keeper.Over processId := by
  cases event with
  | acknowledgesExit =>
      obtain ⟨_, recorded, same⟩ := Option.map_eq_some_iff.mp stepped
      cases same
      rw [List.mem_singleton.mp listed]
      exact kept.recorded recorded
  | acknowledgesPass =>
      obtain ⟨_, runs, same⟩ := Option.map_eq_some_iff.mp stepped
      cases same
      exact (kept.reconciler (Option.filter_eq_some_iff.mp runs).1).acknowledged listed
  | _ =>
      dsimp only [Keeper.step, Keeper.withRunner, Keeper.withShared] at stepped
      repeat' split at stepped
      all_goals cases stepped
      all_goals contradiction

end Keeper.Kept

/-- A process is acknowledged while the Runner holds it ended only once its record states how it ended,
where every exit is answered for while the Runner holds the process, no Launch is refused whose helper the
Runner created and no record of the Runner is released. -/
theorem acknowledged_end_is_recorded {start last after : Keeper} {trace : List KeeperLabel}
    {label : KeeperLabel} {termination : ProcessTermination}
    (isInitial : (keeperSystem config).initial start)
    (run : (firmKeepers config).Run start trace last)
    (stepped : (firmKeepers config).step last label after) (listed : processId ∈ label.acknowledged)
    (held : processId ∈ last.runner.held) (known : last.runner.known.lookup processId = some status)
    (how : status.termination = some termination)
    (stored : last.shared.processes.find? processId = some record) :
    record.outcome = some (.ended termination) ∧ record.exitCode = status.exitCode ∧
      record.signal = status.signal := by
  have kept : last.Kept := run.keeps Keeper.Kept (fun step kept => kept.step step) (.initial isInitial)
  have isOver := kept.acknowledged_over stepped.2 listed
  have named := (Table.find?_eq_some.mp stored).2
  subst named
  rcases (kept.records stored).ends (isOver.2 record stored) with never | ⟨now, found, holds⟩
  · have created := isOver.1
    rw [kept.apart never] at created
    contradiction
  · cases known.symm.trans found
    exact (holds held).2 termination how

/-- The labels and the last state of a list of events, when each of them is possible. -/
def Keeper.replay (config : Config) (keeper : Keeper) (events : List KeeperEvent) :
    Option (List KeeperLabel × Keeper) :=
  Transition.replay (Keeper.step config) KeeperLabel.mk keeper events

theorem Keeper.run_of_replay (replayed : keeper.replay config events = some (trace, last)) :
    (keeperSystem config).Run keeper trace last :=
  System.run_of_replay (fun stepped => by exact stepped) replayed

def Keeper.stepFirm (config : Config) (keeper : Keeper) (event : KeeperEvent) :
    Option (List String × Keeper) :=
  if keeper.isFirm event then keeper.step config event else none

theorem Keeper.stepFirm_step (stepped : keeper.stepFirm config event = some (acknowledged, last)) :
    (firmKeepers config).step keeper ⟨event, acknowledged⟩ last := by
  unfold stepFirm at stepped
  split at stepped
  next firm => exact ⟨firm, stepped⟩
  · contradiction

theorem Keeper.run_of_replayFirm
    (replayed : Transition.replay (Keeper.stepFirm config) KeeperLabel.mk keeper events =
      some (trace, last)) : (firmKeepers config).Run keeper trace last :=
  System.run_of_replay (fun stepped => by exact stepFirm_step stepped) replayed

/-- A process ends and the gateway crashes before it follows the exit: the reconciliation after the next
Claim records how it ended, and then acknowledges it. -/
theorem reconciled_end_is_recorded :
    let config : Config := { independent := true, hash := fun _ => "f", unreadableParams := fun _ => "" }
    let ours : RunnerRef := { bootId := none, pid := 1, startedAtMs := 0, nonce := "n" }
    let start : Keeper := { shared := { runner := ours, link := .linked none } }
    let status : RunnerProcessStatus :=
      { processId := "p", running := false, termination := some .exited, exitCode := some 3 }
    let claim : RunnerClaim := { epoch := 1, processes := [⟨"p", "w", false⟩] }
    let events : List KeeperEvent :=
      [.dispatches { processId := "p", runner := ours, controllerEpoch := none, workspaceId := "w",
                     approvalId := none },
        .creates "p", .ends status, .exits "p", .reopens, .claims claim, .links (.linked (some claim)),
        .reconciles claim, .proceeds {}, .proceeds {}, .proceeds {},
        .proceeds { answers := { recalled := .ok [("p", .held "w" status)] } }] ++
      List.replicate 4 (.proceeds {})
    ∃ trace last after record,
      replay (Keeper.stepFirm config) KeeperLabel.mk start events = some (trace, last) ∧
      last.stepFirm config .acknowledgesPass = some (["p"], after) ∧
      last.shared.processes.find? "p" = some record ∧ record.outcome = some (.ended .exited) ∧
      record.exitCode = some 3 := by
  intro config ours start status claim events
  have replayed : ((replay (Keeper.stepFirm config) KeeperLabel.mk start events).bind fun run =>
      (run.2.stepFirm config .acknowledgesPass).bind fun stepped =>
        (run.2.shared.processes.find? "p").map fun _ =>
          (stepped.1, run.2.runner.held, run.2.runner.known.lookup "p")) =
      some (["p"], ["p"], some status) := by
    decide +kernel
  have isInitial : (keeperSystem config).initial start := ⟨ours, .linked none, rfl, rfl⟩
  clear_value start events config
  obtain ⟨⟨trace, last⟩, ran, ends⟩ := Option.bind_eq_some_iff.mp replayed
  obtain ⟨⟨_, after⟩, stepped, stores⟩ := Option.bind_eq_some_iff.mp ends
  obtain ⟨record, stored, same⟩ := Option.map_eq_some_iff.mp stores
  simp only [Prod.mk.injEq] at same
  obtain ⟨rfl, held, known⟩ := same
  have said := acknowledged_end_is_recorded isInitial (Keeper.run_of_replayFirm ran)
    (Keeper.stepFirm_step stepped) List.mem_cons_self (by simp [held]) known rfl stored
  exact ⟨trace, last, after, record, ran, stepped, stored, said.1, said.2.1⟩

section Unrecorded

def unrecorded : Keeper where
  shared :=
    { runner := { bootId := none, pid := 1, startedAtMs := 0, nonce := "n" }, link := .linked none }

def exitedThree : RunnerProcessStatus where
  processId := "p"
  running := false
  termination := some .exited
  exitCode := some 3

theorem Keeper.acknowledges_of_replay (events : List KeeperEvent) {outcome : Option ProcessOutcome}
    (replayed : ((unrecorded.replay config events).bind fun run =>
      (run.2.step config .acknowledgesExit).bind fun stepped =>
        (run.2.shared.processes.find? "p").map fun record =>
          ([stepped.1, run.2.runner.held], run.2.runner.known.lookup "p", record.phase, record.outcome)) =
      some ([["p"], ["p"]], some exitedThree, .terminal, outcome)) :
    ∃ start trace last after record status, (keeperSystem config).initial start ∧
      (keeperSystem config).Run start trace last ∧
      (keeperSystem config).step last ⟨.acknowledgesExit, ["p"]⟩ after ∧
      "p" ∈ last.runner.held ∧ last.runner.known.lookup "p" = some status ∧
      status.running = false ∧ status.termination = some .exited ∧ status.exitCode = some 3 ∧
      last.shared.processes.find? "p" = some record ∧ record.phase = .terminal ∧
      record.outcome = outcome := by
  obtain ⟨⟨trace, last⟩, ran, ends⟩ := Option.bind_eq_some_iff.mp replayed
  obtain ⟨⟨_, after⟩, stepped, stores⟩ := Option.bind_eq_some_iff.mp ends
  obtain ⟨record, stored, same⟩ := Option.map_eq_some_iff.mp stores
  simp only [Prod.mk.injEq, List.cons.injEq, and_true] at same
  obtain ⟨⟨rfl, held⟩, known, phase, isOutcome⟩ := same
  exact ⟨unrecorded, trace, last, after, record, exitedThree, ⟨_, _, rfl, rfl⟩, Keeper.run_of_replay ran,
    stepped, by simp [held], known, rfl, rfl, rfl, stored, phase, isOutcome⟩

/-- The status of a process that exited cannot be asked, or its Launch is refused after the helper was
created: its record says that it ended and not how, or that it was not started, and the process is
acknowledged while the Runner holds it with its exit code. -/
theorem end_is_acknowledged_unrecorded :
    let config : Config := { independent := true, hash := fun _ => "f", unreadableParams := fun _ => "" }
    ∀ outcome ∈ [none, some ProcessOutcome.notStarted],
      ∃ start trace last after record status, (keeperSystem config).initial start ∧
        (keeperSystem config).Run start trace last ∧
        (keeperSystem config).step last ⟨.acknowledgesExit, ["p"]⟩ after ∧
        "p" ∈ last.runner.held ∧ last.runner.known.lookup "p" = some status ∧
        status.running = false ∧ status.termination = some .exited ∧ status.exitCode = some 3 ∧
        last.shared.processes.find? "p" = some record ∧ record.phase = .terminal ∧
        record.outcome = outcome := by
  intro config
  let sent : ProcessRecord :=
    { processId := "p", runner := unrecorded.shared.runner, controllerEpoch := none, workspaceId := "w",
      approvalId := none }
  rw [List.forall_mem_cons, List.forall_mem_singleton]
  constructor
  · exact Keeper.acknowledges_of_replay
      [.dispatches sent, .creates "p", .ends exitedThree, .exits "p", .follows none true]
      (by decide +kernel)
  · exact Keeper.acknowledges_of_replay
      [.dispatches sent, .creates "p", .ends exitedThree, .refusalAnswered "p", .exits "p",
        .follows (some exitedThree) true] (by decide +kernel)

end Unrecorded

end CodeSpace.Server
