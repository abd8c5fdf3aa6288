import CodeSpace.Server.Reconcile

namespace CodeSpace.Server

open Data Domain Store Transition

/-! What holds of a workspace that a reconciliation leaves open. -/

variable {config : Config} {env : Environment} {state next : Reconciliation}
  {processes after : ProcessRecords} {leases : Leases} {record given : ProcessRecord} {ours : RunnerRef}
  {processId workspaceId : String} {recalled : Except String (List (String × Recalled))}
  {status : RunnerProcessStatus} {decision : Decision}

/-- The record says that the execution ended. -/
def RecordedEnded (processes : ProcessRecords) (processId : String) : Prop :=
  ∃ record, processes.find? processId = some record ∧ record.phase = .terminal ∧
    record.outcome ≠ some .notStarted

/-- The record says that the execution never started. -/
def RecordedNotStarted (processes : ProcessRecords) (processId : String) : Prop :=
  ∃ record, processes.find? processId = some record ∧ record.phase = .terminal ∧
    record.outcome = some .notStarted

/-- The store has a record of the execution, with an outcome only once it ended. -/
def HasRecord (processes : ProcessRecords) (given : ProcessRecord) : Prop :=
  ∃ record, processes.find? given.processId = some record ∧ record.runner = given.runner ∧
    (record.outcome.isSome = true → record.phase = .terminal)

structure KeepsRecords (processes after : ProcessRecords) : Prop where
  ended {processId : String} (recorded : RecordedEnded processes processId) :
    RecordedEnded after processId
  notStarted {processId : String} (recorded : RecordedNotStarted processes processId) :
    RecordedNotStarted after processId
  has {given : ProcessRecord} (has : HasRecord processes given) : HasRecord after given

theorem KeepsRecords.refl (processes : ProcessRecords) : KeepsRecords processes processes := ⟨id, id, id⟩

theorem keepsRecords_apply (processes : ProcessRecords) (call : ProcessCall) :
    KeepsRecords processes (processes.apply call) where
  ended := by
    rintro processId ⟨record, stored, terminal, started⟩
    have kept := record.apply_terminal call terminal
    exact ⟨record.apply call, by simp [ProcessRecords.find?_apply, stored], kept.1, mt kept.2.mp started⟩
  notStarted := by
    rintro processId ⟨record, stored, terminal, unstarted⟩
    have kept := record.apply_terminal call terminal
    exact ⟨record.apply call, by simp [ProcessRecords.find?_apply, stored], kept.1, kept.2.mpr unstarted⟩
  has := by
    rintro given ⟨record, stored, sent, settled⟩
    have applied := record.apply_applied call
    exact ⟨record.apply call, by simp [ProcessRecords.find?_apply, stored], applied.identity.1.trans sent,
      applied.outcome_terminal settled⟩

/-- What a decision says of the execution can be recorded: one that never started is still being
dispatched, or ended; and of one that ended, the record does not say that it never started. -/
def Decision.isRecordable (decision : Decision) (record : ProcessRecord) : Bool :=
  match decision with
  | .notStarted => record.phase ∈ [.dispatching, .terminal]
  | .ended _ => record.outcome ≠ some .notStarted
  | .running | .settled _ | .pending _ | .blocked _ => true

theorem find?_recordEnd_own (stored : processes.find? processId = some record) (sent : record.runner = ours)
    (how : ProcessEnd) :
    (processes.recordEnd ours processId how).find? processId = some (record.ended how).written := by
  have isIt : record.processId = processId := (Table.find?_eq_some.mp stored).2
  rw [ProcessRecords.find?_recordEnd, stored]
  simp [isIt, sent]

/-- The workspace is held for the process, or it exited. -/
def Leases.Keeps (leases : Leases) (workspaceId processId : String) : Prop :=
  leases.holds workspaceId processId ∨ leases.noted processId = true

/-- Exits are noted, and only an exit gives up the lease of a process. -/
structure Leases.Later (leases next : Leases) : Prop where
  notes : next.exited.isSome = true
  keeps {workspaceId processId : String} (kept : leases.Keeps workspaceId processId) :
    next.Keeps workspaceId processId

section

variable (notes : leases.exited.isSome = true)
include notes

theorem Leases.Later.refl : leases.Later leases := ⟨notes, id⟩

theorem Leases.release_later (processId : String) : leases.Later (leases.release processId) := by
  obtain ⟨_, isNoted⟩ := Option.isSome_iff_exists.mp notes
  refine ⟨by simp [release, isNoted], fun kept => ?_⟩
  rcases kept with held | exited
  · exact release_holds isNoted held
  · exact .inr (noted_release exited)

theorem Leases.restore_later (workspaceId processId : String) :
    leases.Later (leases.restore workspaceId processId).2 := by
  refine ⟨by rwa [restore_exited], fun kept => ?_⟩
  rcases kept with held | exited
  · exact .inl (restore_holds held workspaceId processId)
  · refine .inr ?_
    rwa [noted, restore_exited]

theorem Decision.lease_later (decision : Decision)
    (record : ProcessRecord) : leases.Later (decision.lease record leases).2 := by
  cases decision with
  | running =>
      dsimp only [Decision.lease]
      split <;> exact Leases.restore_later notes ..
  | ended | notStarted => exact Leases.release_later notes _
  | settled | pending | blocked => exact .refl notes

end

/-- A workspace that could be held for a process found running is. -/
theorem Decision.lease_running (granted : (Decision.running.lease record leases).1 = none) :
    (Decision.running.lease record leases).2.Keeps record.workspaceId record.processId := by
  dsimp only [Decision.lease] at granted ⊢
  split at granted
  next restored => exact Leases.restore_ok restored
  · contradiction

namespace Reconciliation

/-- What the reconciliation decides about a record. -/
def decide (config : Config) (state : Reconciliation) (record : ProcessRecord) : Decision :=
  decideFor config.devguard state.shared.runner state.pass.losses state.pass.recalled state.attempts
    record

/-- What became of an execution is known: its record says that it ended, or that it never started, which
the Runner said; or the Runner holds it running, and the workspace is held for it. -/
inductive Resolved (state : Reconciliation) (record : ProcessRecord) : Prop
  | ended (recorded : RecordedEnded state.shared.processes record.processId) : Resolved state record
  | notStarted (recorded : RecordedNotStarted state.shared.processes record.processId)
      (dispatching : record.phase = .dispatching)
      (answered : Answered state.pass.recalled record.processId .notReceived ∨
        Answered state.pass.recalled record.processId .refused)
      (unlaunched : Unlaunched state.attempts record) : Resolved state record
  | running {status : RunnerProcessStatus}
      (answered : Answered state.pass.recalled record.processId (.held record.workspaceId status))
      (runs : status.running = true)
      (kept : state.leases.Keeps record.workspaceId record.processId) : Resolved state record

def Barred (state : Reconciliation) (record : ProcessRecord) : Prop :=
  (state.pass.bars.lookup record.workspaceId).isSome = true

structure Later (state next : Reconciliation) : Prop where
  records : next.pass.records = state.pass.records
  claim : next.pass.claim = state.pass.claim
  runner : next.shared.runner = state.shared.runner
  ends : KeepsRecords state.shared.processes next.shared.processes
  leases : state.leases.Later next.leases
  bars : Bars.Grow state.pass.bars next.pass.bars
  recalls : state.pass.recalled = .ok [] ∨
    next.pass.recalled = state.pass.recalled ∧ next.attempts = state.attempts

theorem not_answered {answer : Recalled} : ¬ Answered (.ok []) processId answer := by
  rintro ⟨remembered, isEmpty, found⟩
  cases isEmpty
  contradiction

theorem Later.asked {answer : Recalled} (later : Later state next)
    (answered : Answered state.pass.recalled processId answer) :
    next.pass.recalled = state.pass.recalled ∧ next.attempts = state.attempts :=
  later.recalls.resolve_left fun unasked => not_answered (unasked ▸ answered)

theorem Later.resolved (later : Later state next) (resolved : state.Resolved record) :
    next.Resolved record := by
  cases resolved with
  | ended recorded => exact .ended (later.ends.ended recorded)
  | notStarted recorded dispatching answered unlaunched =>
      obtain ⟨recalled, attempts⟩ := answered.elim later.asked later.asked
      rw [← recalled] at answered
      rw [← attempts] at unlaunched
      exact .notStarted (later.ends.notStarted recorded) dispatching answered unlaunched
  | running answered runs kept =>
      exact .running ((later.asked answered).1 ▸ answered) runs (later.leases.keeps kept)

/-- The Runner states the status of the process it was asked about. -/
def Named (state : Reconciliation) : Prop :=
  ∀ processId workspaceId status, Answered state.pass.recalled processId (.held workspaceId status) →
    status.processId = processId

/-- The records that `apply` has still to act on. -/
def ahead (state : Reconciliation) : List ProcessRecord :=
  match state.pass.stage with
  | .accounts | .reads | .loses _ | .asks => state.pass.records
  | .applies decided => decided.map Prod.fst
  | _ => []

/-- The Runner holds the process running in the workspace. -/
def RunsIn (state : Reconciliation) (processId workspaceId : String) : Prop :=
  ∃ status, Answered state.pass.recalled processId (.held workspaceId status) ∧ status.running = true

def AtStage (config : Config) (state : Reconciliation) : Prop :=
  match state.pass.stage with
  | .accounts | .reads => False
  | .loses _ | .asks => state.pass.recalled = .ok []
  | .applies decided =>
      ∀ entry ∈ decided, entry.1 ∈ state.pass.records ∧ entry.2 = state.decide config entry.1
  | .tells | .ended =>
      ∀ entry ∈ suspects state.pass.claim state.pass.records, ∀ workspaceId,
        state.RunsIn entry.processId workspaceId →
          ∃ why, state.pass.bars.lookup workspaceId = some (.blocked why)
  | _ => True

/-- What holds of a reconciliation at each of its steps. -/
structure Sound (config : Config) (state : Reconciliation) : Prop where
  notes : state.leases.exited.isSome = true
  known : ∀ record ∈ state.pass.records, HasRecord state.shared.processes record
  blocked : ∀ record ∈ state.pass.records, record ∉ state.ahead →
    ∀ reason, state.decide config record = .blocked reason →
      ∃ why, state.pass.bars.lookup record.workspaceId = some (.blocked why)
  stage : state.AtStage config

/-- What `apply` acted on is resolved, or its workspace waits. -/
def Accounts (state : Reconciliation) : Prop :=
  state.Named → ∀ record ∈ state.pass.records, record ∉ state.ahead →
    record.phase ≠ .terminal → state.Resolved record ∨ state.Barred record

/-- What `apply` writes can be recorded, whatever was recorded since the records were read. -/
def isCurrent (state : Reconciliation) : Happening → Bool
  | .proceeds env =>
      match state.pass.stage with
      | .applies ((given, decision) :: _) =>
          env.unwritten.isSome || (state.shared.processes.find? given.processId).all decision.isRecordable
      | _ => true
  | .exits _ | .records _ => true

/-- A step in which nothing new is decided. -/
structure Quiet (state next : Reconciliation) : Prop extends Later state next where
  decides : next.ahead = state.pass.records ∨
    next.pass.recalled = state.pass.recalled ∧ next.attempts = state.attempts ∧
      next.pass.losses = state.pass.losses
  ahead : next.ahead = state.ahead

theorem Later.keeps (later : Later state next) (was : state.Resolved record ∨ state.Barred record) :
    next.Resolved record ∨ next.Barred record :=
  was.imp later.resolved later.bars.barred

theorem Later.known (later : Later state next) (sound : state.Sound config) :
    ∀ record ∈ next.pass.records, HasRecord next.shared.processes record := by
  rw [later.records]
  exact fun record listed => later.ends.has (sound.known record listed)

theorem Later.named (later : Later state next) (named : next.Named) : state.Named :=
  fun processId workspaceId status answered =>
    named processId workspaceId status ((later.asked answered).1 ▸ answered)

/-- What `apply` did to a record, and what it has still to do. -/
structure Applies (state next : Reconciliation) (given : ProcessRecord) (decision : Decision)
    (written : Bool) (rest : List (ProcessRecord × Decision)) : Prop extends Later state next where
  stage : state.pass.stage = .applies ((given, decision) :: rest)
  processes : next.shared.processes =
    decision.record written state.shared.runner given.processId state.shared.processes
  lease : next.leases = (decision.lease given state.leases).2
  barred : next.pass.bars =
    decision.bar written (decision.lease given state.leases).1 given state.pass.bars
  recalled : next.pass.recalled = state.pass.recalled
  attempts : next.attempts = state.attempts
  losses : next.pass.losses = state.pass.losses
  remains : next.pass.stage = .applies rest

/-- A step decides nothing, or is that of `apply`. -/
inductive Moves (config : Config) (state : Reconciliation) (happening : Happening) : Prop
  | quiet (quiet : Quiet state (state.step config happening))
      (stage : (state.step config happening).AtStage config) : Moves config state happening
  | applies {given : ProcessRecord} {decision : Decision} {rest : List (ProcessRecord × Decision)}
      {env : Environment} (proceeds : happening = .proceeds env)
      (applies : Applies state (state.step config happening) given decision env.unwritten.isNone rest) :
      Moves config state happening

section Moving

variable (sound : state.Sound config)
include sound

theorem Sound.moves {gate : Gate} {stage : PassStage}
    (isNext : next = { state with
      shared := { state.shared with gate := gate }, pass := { state.pass with stage := stage } })
    (ahead : next.ahead = state.ahead) : Quiet state next := by
  subst isNext
  exact
    { records := rfl, claim := rfl, runner := rfl, ends := .refl _, leases := .refl sound.notes
      bars := .refl _, recalls := .inr ⟨rfl, rfl⟩, decides := .inr ⟨rfl, rfl, rfl⟩, ahead := ahead }

theorem Sound.exits (processId : String) : Moves config state (.exits processId) := .quiet
    { records := rfl, claim := rfl, runner := rfl, ends := .refl _
      leases := Leases.release_later sound.notes processId, bars := .refl _
      recalls := .inr ⟨rfl, rfl⟩, decides := .inr ⟨rfl, rfl, rfl⟩, ahead := rfl }
    sound.stage

theorem Sound.records (call : ProcessCall) : Moves config state (.records call) := .quiet
    { records := rfl, claim := rfl, runner := rfl, ends := keepsRecords_apply _ call
      leases := .refl sound.notes, bars := .refl _
      recalls := .inr ⟨rfl, rfl⟩, decides := .inr ⟨rfl, rfl, rfl⟩, ahead := rfl }
    sound.stage

theorem Sound.loses {runners : List RunnerRef} (stage : state.pass.stage = .loses runners)
    (env : Environment) : Moves config state (.proceeds env) := by
  obtain ⟨shared, leases, ⟨claim, records, _, _, _, bars, _⟩, _⟩ := state
  cases stage
  have unasked := sound.stage
  cases runners with
  | nil => exact .quiet (sound.moves rfl rfl) unasked
  | cons lost =>
      have kept : KeepsRecords shared.processes (Pass.lose shared env.unwritten lost).2 := by
        unfold Pass.lose
        dsimp only
        split
        · exact .refl _
        · exact keepsRecords_apply _ (.recordRunnerLost lost _)
      refine .quiet (?_ : Quiet _ (proceed config _ env)) unasked
      exact
        { records := rfl, claim := rfl, runner := rfl, ends := kept, leases := .refl sound.notes
          bars := .refl _, recalls := .inl unasked, decides := .inl rfl, ahead := rfl }

theorem Sound.asks (stage : state.pass.stage = .asks) (env : Environment) :
    Moves config state (.proceeds env) := by
  obtain ⟨_, leases, ⟨claim, records, _, recalled, _, bars, _⟩, _⟩ := state
  cases stage
  have unasked : recalled = .ok [] := sound.stage
  have all (decided : ProcessRecord → Decision) :
      (records.map fun record => (record, decided record)).map Prod.fst = records := by
    simp [Function.comp_def]
  refine .quiet (?_ : Quiet _ (proceed config _ env)) ?_
  · exact
      { records := rfl, claim := rfl, runner := rfl, ends := .refl _, leases := .refl sound.notes
        bars := .refl _, recalls := .inl unasked, decides := .inl (all _), ahead := all _ }
  · intro entry listed
    obtain ⟨_, given, rfl⟩ := List.mem_map.mp listed
    exact ⟨given, rfl⟩

end Moving

end Reconciliation

/-- The pass settles the approvals that its executions resumed. -/
def PassStage.settling : PassStage → Bool
  | .settles _ | .settleMarks .. | .settleReads .. | .settleReturns .. | .settleFinishes ..
  | .settleFinishWrites .. | .settleEnds .. => true
  | _ => false

theorem Pass.settle_settling (pass : Pass) (shared : Shared) (id : String) (rest : List String) :
    (pass.settle shared id rest).settling = true := by
  unfold settle
  split
  · split
    · rfl
    · split <;> rfl
  · rfl

/-- Settling the approvals leaves what was decided of the executions. -/
structure Pass.Settles (shared : Shared) (pass : Pass) (turn : Turn Pass) : Prop where
  records : turn.stage.records = pass.records
  claim : turn.stage.claim = pass.claim
  losses : turn.stage.losses = pass.losses
  recalled : turn.stage.recalled = pass.recalled
  processes : turn.shared.processes = shared.processes
  stage : turn.stage.stage.settling = true ∨ pass.stage = .settles [] ∧ turn.stage.stage = .tells

theorem Pass.advance_settles (shared : Shared) (pass : Pass) (settling : pass.stage.settling = true) :
    pass.Settles shared (pass.advance config shared env) := by
  have settle (id : String) (rest : List String) := pass.settle_settling shared id rest
  obtain ⟨_, _, _, _, _, _, stage⟩ := pass
  cases stage with
  | settles approvals =>
      cases approvals with
      | nil => exact ⟨rfl, rfl, rfl, rfl, rfl, .inr ⟨rfl, rfl⟩⟩
      | cons id rest =>
          dsimp only [Pass.advance]
          split
          · exact ⟨rfl, rfl, rfl, rfl, rfl, .inl rfl⟩
          · exact ⟨rfl, rfl, rfl, rfl, rfl, .inl (settle id rest)⟩
  | settleMarks =>
      dsimp only [Pass.advance]
      split <;> exact ⟨rfl, rfl, rfl, rfl, rfl, .inl rfl⟩
  | settleReads =>
      refine ⟨rfl, rfl, rfl, rfl, rfl, .inl ?_⟩
      dsimp only [Pass.advance]
      split
      · rfl
      · split
        · rfl
        · split <;> rfl
  | settleFinishes =>
      refine ⟨rfl, rfl, rfl, rfl, rfl, .inl ?_⟩
      dsimp only [Pass.advance]
      split <;> rfl
  | settleReturns | settleFinishWrites | settleEnds => exact ⟨rfl, rfl, rfl, rfl, rfl, .inl rfl⟩
  | _ => contradiction

theorem Pass.advance_given (shared : Shared) (pass : Pass) (read : pass.stage ≠ .reads) :
    (pass.advance config shared env).stage.records = pass.records ∧
      (pass.advance config shared env).stage.claim = pass.claim := by
  cases settling : pass.stage.settling with
  | true =>
      have settles : pass.Settles shared (pass.advance config shared env) :=
        pass.advance_settles shared settling
      exact ⟨settles.records, settles.claim⟩
  | false =>
      obtain ⟨_, _, _, _, _, _, stage⟩ := pass
      cases stage with
      | reads => exact absurd rfl read
      | loses runners => cases runners <;> exact ⟨rfl, rfl⟩
      | applies decided => cases decided <;> exact ⟨rfl, rfl⟩
      | accounts | asks | tells | ended => exact ⟨rfl, rfl⟩
      | _ => contradiction

/-- A process that the Runner holds running, and that no record accounts for, blocks its workspace. -/
theorem barSuspects_blocked {entries : List InventoryEntry} {entry : InventoryEntry}
    (listed : entry ∈ entries) (answered : Answered recalled entry.processId (.held workspaceId status))
    (runs : status.running = true) (bars : Bars) :
    ∃ why, (entries.foldl (barSuspect recalled) bars).lookup workspaceId = some (.blocked why) := by
  induction entries generalizing bars with
  | nil => exact absurd listed List.not_mem_nil
  | cons _ rest ih =>
      rcases List.mem_cons.mp listed with rfl | later
      · obtain ⟨_, rfl, found⟩ := answered
        obtain ⟨why, isBlocked⟩ := Bars.block_blocked bars workspaceId ("process `" ++
          entry.processId ++ "` runs there, and no record of this gateway accounts for it")
        refine ⟨why, (Bars.foldl_grow (barSuspect_grow _) rest _).blocked ?_⟩
        simpa [barSuspect, found, runs] using isBlocked
      · exact ih later _

namespace Reconciliation

theorem ahead_eq_nil (acted : state.pass.stage.settling = true ∨ state.pass.stage = .tells) :
    state.ahead = [] := by
  obtain ⟨_, _, ⟨_, _, _, _, _, _, stage⟩, _⟩ := state
  cases stage <;> first | rfl | simp [PassStage.settling] at acted

theorem proceed_settling (settling : state.pass.stage.settling = true) (env : Environment) :
    state.proceed config env =
      { shared := (state.pass.advance config state.shared env).shared, leases := state.leases
        pass := (state.pass.advance config state.shared env).stage, attempts := state.attempts } := by
  obtain ⟨_, _, ⟨_, _, _, _, _, _, stage⟩, _⟩ := state
  cases stage with
  | accounts | reads | loses | asks | applies | tells | ended => contradiction
  | _ => rfl

theorem Sound.settling (settling : state.pass.stage.settling = true) (sound : state.Sound config)
    (env : Environment) : Moves config state (.proceeds env) := by
  have turn : state.pass.Settles state.shared (state.pass.advance config state.shared env) :=
    state.pass.advance_settles state.shared settling
  have grown : Bars.Grow state.pass.bars (state.pass.advance config state.shared env).stage.bars :=
    state.pass.advance_bars_grow
  have surroundings : SameSurroundings state.shared (state.pass.advance config state.shared env).shared :=
    state.pass.advance_surroundings state.shared
  have acted : (state.proceed config env).ahead = [] := by
    refine ahead_eq_nil ?_
    rw [proceed_settling settling]
    exact turn.stage.imp_right And.right
  refine .quiet { toLater := ?_, decides := .inr ?_, ahead := ?_ } ?_
  all_goals dsimp only [step]
  · rw [proceed_settling settling]
    exact
      { records := turn.records, claim := turn.claim, runner := surroundings.runner
        ends := turn.processes ▸ .refl _, leases := .refl sound.notes, bars := grown
        recalls := .inr ⟨turn.recalled, rfl⟩ }
  · rw [proceed_settling settling]
    exact ⟨turn.recalled, rfl, turn.losses⟩
  · exact acted.trans (ahead_eq_nil (.inl settling)).symm
  · rcases turn.stage with still | ⟨last, tells⟩
    · rw [proceed_settling settling]
      unfold AtStage
      dsimp only
      split <;> simp_all [PassStage.settling]
    · obtain ⟨_, _, ⟨_, _, _, _, _, bars, _⟩, _⟩ := state
      cases last
      rintro entry listed workspaceId ⟨status, answered, runs⟩
      exact barSuspects_blocked listed answered runs bars

end Reconciliation

section Applying

variable {written : Bool} {refusal : Option ErrorBody} {bars : Bars}

/-- A decision whose record cannot be written keeps the workspace waiting. -/
theorem Decision.bar_unwritten (acts : decision = .running ∨ (∃ status, decision = .ended status) ∨
    decision = .notStarted) :
    ((decision.bar false refusal record bars).lookup record.workspaceId).isSome = true := by
  have pended (reason : String) := Bars.pend_barred bars record.workspaceId reason
  rcases acts with rfl | ⟨status, rfl⟩ | rfl
  · cases refusal with
    | none => exact pended _
    | some => exact (Bars.pend_grow ..).barred (pended _)
  · exact pended _
  · exact pended _

theorem Decision.record_keepsRecords (decision : Decision) (written : Bool) (ours : RunnerRef)
    (processId : String) (processes : ProcessRecords) :
    KeepsRecords processes (decision.record written ours processId processes) := by
  unfold Decision.record
  split
  · split
    · exact keepsRecords_apply _ (.recordRunning _ _ _ _)
    · exact keepsRecords_apply _ (.recordEnd _ _ _)
    · exact keepsRecords_apply _ (.recordEnd _ _ _)
    · exact keepsRecords_apply _ (.recordEnd _ _ _)
    all_goals exact .refl _
  · exact .refl _

theorem Decision.bar_refused {error : ErrorBody} :
    ((Decision.running.bar written (some error) record bars).lookup record.workspaceId).isSome = true :=
  Bars.pend_barred ..

theorem Decided.ended_status {attempts : List (String × Attempt)}
    (decided : Decided ours recalled attempts record (.ended (some status))) :
    Answered recalled record.processId (.held record.workspaceId status) := by
  generalize is : Decision.ended (some status) = decision at decided
  cases decided with
  | answered _ answered supports =>
      subst is
      cases supports
      exact answered
  | settled | pending | blocked => contradiction

end Applying

namespace Reconciliation

variable {written : Bool} {rest : List (ProcessRecord × Decision)} {happening : Happening}

theorem isAsked_runner (asked : isAsked ours record = true) : record.runner = ours := by
  simp only [isAsked, Bool.and_eq_true, decide_eq_true_eq] at asked
  exact asked.2

namespace Applies

variable (applies : Applies state next given decision written rest)
include applies

theorem entries (sound : state.Sound config) : ∀ entry ∈ (given, decision) :: rest,
    entry.1 ∈ state.pass.records ∧ entry.2 = state.decide config entry.1 := by
  have atStage := sound.stage
  rwa [AtStage, applies.stage] at atStage

theorem given_decided (sound : state.Sound config) : given ∈ state.pass.records ∧
      Decided state.shared.runner state.pass.recalled state.attempts given decision := by
  obtain ⟨listed, decided⟩ := applies.entries sound (given, decision) List.mem_cons_self
  dsimp only at decided
  exact ⟨listed, decided ▸ decideFor_decided ..⟩

theorem decides : next.decide config record = state.decide config record := by
  rw [decide, applies.runner, applies.recalled, applies.attempts, applies.losses, decide]

/-- Either `apply` has just acted on the record for the last time, or it acted on it before. -/
theorem acted (acted : record ∉ next.ahead) : record = given ∨ record ∉ state.ahead := by
  have ahead : state.ahead = given :: next.ahead := by
    rw [Reconciliation.ahead, Reconciliation.ahead, applies.stage, applies.remains]
    rfl
  rw [ahead, List.mem_cons, not_or]
  by_cases same : record = given
  · exact .inl same
  · exact .inr ⟨same, acted⟩

/-- An end that is written for the execution is recorded, unless its record says that it never started. -/
theorem ended (sound : state.Sound config) (asked : isAsked state.shared.runner given = true)
    (current : ∀ record, state.shared.processes.find? given.processId = some record →
      record.outcome ≠ some .notStarted) {termination : Option ProcessTermination}
    {exitCode signal : Option Int} {total : Option Nat}
    (recorded : next.shared.processes = state.shared.processes.recordEnd state.shared.runner
      given.processId (.ended termination exitCode signal total)) :
    RecordedEnded next.shared.processes given.processId := by
  obtain ⟨record, stored, sent, -⟩ := sound.known given (applies.given_decided sound).1
  rw [recorded]
  exact ⟨_, find?_recordEnd_own stored (sent.trans (isAsked_runner asked)) _,
    record.ended_ended (current record stored) ..⟩

/-- That the execution never started is recorded while it is being dispatched; after an end, what is
recorded stays. -/
theorem notStarted (sound : state.Sound config) (asked : isAsked state.shared.runner given = true)
    (current : ∀ record, state.shared.processes.find? given.processId = some record →
      record.phase ∈ [.dispatching, .terminal])
    (recorded : next.shared.processes = state.shared.processes.recordEnd state.shared.runner
      given.processId .notStarted) :
    RecordedNotStarted next.shared.processes given.processId ∨
      RecordedEnded next.shared.processes given.processId := by
  obtain ⟨record, stored, sent, -⟩ := sound.known given (applies.given_decided sound).1
  have after := find?_recordEnd_own stored (sent.trans (isAsked_runner asked)) .notStarted
  rw [← recorded] at after
  have phase := current record stored
  simp only [List.mem_cons, List.not_mem_nil, or_false] at phase
  rcases phase with dispatching | terminal
  · refine .inl ⟨_, after, ?_⟩
    simp [ProcessRecord.ended, ProcessRecord.written, dispatching]
  · have kept : (record.ended .notStarted).written = record.written := by
      simp [ProcessRecord.ended, terminal]
    rw [kept] at after
    by_cases unstarted : record.outcome = some .notStarted
    · exact .inl ⟨_, after, terminal, unstarted⟩
    · exact .inr ⟨_, after, terminal, unstarted⟩

theorem waits (waiting : ∃ reason, decision = .pending reason ∨ decision = .blocked reason) :
    next.Barred given := by
  rw [Barred, applies.barred]
  obtain ⟨reason, rfl | rfl⟩ := waiting
  · exact Bars.pend_barred ..
  · obtain ⟨_, isBlocked⟩ := Bars.block_blocked state.pass.bars given.workspaceId reason
    exact Option.isSome_iff_exists.mpr ⟨_, isBlocked⟩

/-- What `apply` acted on is resolved, or keeps its workspace waiting. -/
theorem resolves (sound : state.Sound config) (unended : given.phase ≠ .terminal)
    (named : ∀ status, decision = .ended (some status) → status.processId = given.processId)
    (current : written = true → ∀ record,
      state.shared.processes.find? given.processId = some record → decision.isRecordable record = true) :
    next.Resolved given ∨ next.Barred given := by
  have recorded (acts : decision = .running ∨ (∃ status, decision = .ended status) ∨
      decision = .notStarted) (moves : written = true → next.Resolved given) :
      next.Resolved given ∨ next.Barred given := by
    cases isWritten : written with
    | false =>
        rw [Barred, applies.barred, isWritten]
        exact .inr (Decision.bar_unwritten acts)
    | true => exact .inl (moves isWritten)
  cases (applies.given_decided sound).2 with
  | settled terminal => exact absurd terminal unended
  | pending reason => exact .inr (applies.waits ⟨reason, .inl rfl⟩)
  | blocked reason => exact .inr (applies.waits ⟨reason, .inr rfl⟩)
  | @answered answer _ asked answered supports =>
      rw [← applies.recalled] at answered
      have processes := applies.processes
      cases supports with
      | running runs =>
          cases refused : (Decision.running.lease given state.leases).1 with
          | some =>
              refine .inr ?_
              rw [Barred, applies.barred, refused]
              exact Decision.bar_refused
          | none =>
              refine .inl (.running answered runs ?_)
              rw [applies.lease]
              exact Decision.lease_running refused
      | @ended status isOver =>
          refine recorded (by simp) fun isWritten => .ended ?_
          rw [Decision.record, if_pos isWritten] at processes
          refine applies.ended sound asked (fun record stored => ?_) (named status rfl ▸ processes)
          simpa [Decision.isRecordable] using current isWritten record stored
      | dropped =>
          refine recorded (by simp) fun isWritten => .ended ?_
          rw [Decision.record, if_pos isWritten] at processes
          refine applies.ended sound asked (fun record stored => ?_) processes
          simpa [Decision.isRecordable] using current isWritten record stored
      | notReceived dispatching agreed | refused dispatching agreed =>
          refine recorded (by simp) fun isWritten => ?_
          rw [Decision.record, if_pos isWritten] at processes
          rcases applies.notStarted sound asked (fun record stored => by
            simpa [Decision.isRecordable] using current isWritten record stored) processes with
            unstarted | ended
          · exact .notStarted unstarted dispatching (by simp [answered]) (applies.attempts ▸ agreed)
          · exact .ended ended
      | pending _ reason => exact .inr (applies.waits ⟨reason, .inl rfl⟩)
      | blocked _ reason => exact .inr (applies.waits ⟨reason, .inr rfl⟩)

/-- What can no longer be recorded leaves the execution unaccounted for, and its workspace as it was. -/
theorem unresolved (sound : state.Sound config) (isWritten : written = true)
    (stored : state.shared.processes.find? given.processId = some record)
    (late : decision.isRecordable record = false) :
    ¬ next.Resolved given ∧ next.pass.bars = state.pass.bars := by
  obtain ⟨listed, decided⟩ := applies.given_decided sound
  obtain ⟨_, isStored, sent, settled⟩ := sound.known given listed
  cases stored.symm.trans isStored
  have processes := applies.processes
  have bars := applies.barred
  cases decided with
  | settled | pending | blocked => contradiction
  | @answered answer _ asked answered supports =>
      rw [← applies.recalled] at answered
      cases supports with
      | running | pending | blocked => contradiction
      | ended isOver | dropped =>
          have unstarted : record.outcome = some .notStarted := by simpa [Decision.isRecordable] using late
          have kept := applies.ends.notStarted ⟨record, stored, settled (by simp [unstarted]), unstarted⟩
          refine ⟨fun resolved => ?_, by rw [bars, Decision.bar, Bars.pendUnwritten, if_pos isWritten]⟩
          cases resolved with
          | ended recorded =>
              obtain ⟨now, found, -, started⟩ := recorded
              obtain ⟨_, isFound, -, unstarted⟩ := kept
              cases found.symm.trans isFound
              exact started unstarted
          | notStarted _ _ other => rcases other with other | other <;> cases answered.unique other
          | running other => cases answered.unique other <;> simp_all
      | notReceived dispatching | refused dispatching =>
          have after := find?_recordEnd_own stored (sent.trans (isAsked_runner asked)) .notStarted
          rw [Decision.record, if_pos isWritten] at processes
          rw [← processes] at after
          simp only [Decision.isRecordable, List.mem_cons, List.not_mem_nil, or_false,
            decide_eq_false_iff_not, not_or] at late
          have kept : (record.ended .notStarted).written.phase = record.phase := by
            simp [ProcessRecord.ended, late.1]
          have unended {now : ProcessRecord} (found : next.shared.processes.find? given.processId = some now)
              (terminal : now.phase = .terminal) : False := by
            cases after.symm.trans found
            exact late.2 (kept.symm.trans terminal)
          refine ⟨fun resolved => ?_, by rw [bars, Decision.bar, Bars.pendUnwritten, if_pos isWritten]⟩
          cases resolved with
          | ended recorded | notStarted recorded =>
              obtain ⟨_, found, terminal, -⟩ := recorded
              exact unended found terminal
          | running other => cases answered.unique other

end Applies

theorem proceed_applies (stage : state.pass.stage = .applies ((given, decision) :: rest))
    (sound : state.Sound config) (env : Environment) :
    Applies state (state.proceed config env) given decision env.unwritten.isNone rest := by
  have notes := sound.notes
  obtain ⟨_, leases, ⟨claim, records, losses, recalled, _, bars, _⟩, attempts⟩ := state
  cases stage
  exact
    { records := rfl, claim := rfl, runner := rfl, ends := decision.record_keepsRecords ..
      leases := decision.lease_later notes given, bars := decision.bar_grow ..
      recalls := .inr ⟨rfl, rfl⟩, stage := rfl, processes := rfl, lease := rfl, barred := rfl
      recalled := rfl, attempts := rfl, losses := rfl, remains := rfl }

theorem Sound.step_moves (sound : state.Sound config) (happening : Happening) :
    Moves config state happening := by
  cases happening with
  | exits processId => exact sound.exits processId
  | records call => exact sound.records call
  | proceeds env =>
      have atStage := sound.stage
      cases stage : state.pass.stage with
      | accounts | reads =>
          rw [AtStage, stage] at atStage
          exact atStage.elim
      | loses => exact sound.loses stage env
      | asks => exact sound.asks stage env
      | applies decided =>
          cases decided with
          | nil =>
              obtain ⟨shared, leases, ⟨claim, records, losses, recalled, links, bars, _⟩, attempts⟩ := state
              cases stage
              exact .quiet (sound.moves rfl rfl) trivial
          | cons => exact .applies rfl (proceed_applies stage sound env)
      | tells | ended =>
          obtain ⟨_, _, ⟨_, _⟩, _⟩ := state
          cases stage
          exact .quiet (sound.moves rfl rfl) atStage
      | _ => exact sound.settling (by simp [stage, PassStage.settling]) env

theorem Moves.later (moves : Moves config state happening) : Later state (state.step config happening) := by
  cases moves with
  | quiet quiet => exact quiet.toLater
  | applies _ applies => exact applies.toLater

theorem Sound.step (sound : state.Sound config) (happening : Happening) :
    (state.step config happening).Sound config := by
  have moves := sound.step_moves happening
  have later := moves.later
  refine ⟨later.leases.notes, later.known sound, ?_, ?_⟩
  · rw [later.records]
    intro record listed acted reason decided
    cases moves with
    | quiet quiet =>
        rcases quiet.decides with all | ⟨recalled, attempts, losses⟩
        · rw [all] at acted
          exact absurd listed acted
        · rw [quiet.ahead] at acted
          rw [decide, later.runner, recalled, attempts, losses] at decided
          obtain ⟨why, isBlocked⟩ := sound.blocked record listed acted reason decided
          exact ⟨why, later.bars.blocked isBlocked⟩
    | applies _ applies =>
        rw [applies.decides] at decided
        rcases applies.acted acted with rfl | before
        · have isBlocked := (applies.entries sound _ List.mem_cons_self).2.trans decided
          dsimp only at isBlocked
          rw [applies.barred, isBlocked]
          exact Bars.block_blocked ..
        · obtain ⟨why, was⟩ := sound.blocked record listed before reason decided
          exact ⟨why, later.bars.blocked was⟩
  · cases moves with
    | quiet _ stage => exact stage
    | applies _ applies =>
        rw [AtStage, applies.remains]
        intro entry present
        rw [later.records, applies.decides]
        exact applies.entries sound entry (List.mem_cons_of_mem _ present)

/-- As long as what `apply` writes can be recorded, what it acted on is accounted for. -/
theorem Accounts.step (accounts : state.Accounts) (sound : state.Sound config)
    (current : state.isCurrent happening = true) : (state.step config happening).Accounts := by
  have moves := sound.step_moves happening
  have later := moves.later
  intro named record listed acted unended
  rw [later.records] at listed
  have before (acted : record ∉ state.ahead) :=
    later.keeps (accounts (later.named named) record listed acted unended)
  cases moves with
  | quiet quiet => exact before (quiet.ahead ▸ acted)
  | applies proceeds applies =>
      rcases applies.acted acted with rfl | earlier
      · refine applies.resolves sound unended (fun status ended => ?_) fun isWritten stored found => ?_
        · subst ended
          exact later.named named _ _ status (applies.given_decided sound).2.ended_status
        · rw [proceeds, isCurrent, applies.stage] at current
          simp_all
      · exact before earlier

/-- Every run keeps what holds of each step, and the records and the Claim that it was given. -/
theorem run_sound {shared : Shared} {claim : RunnerClaim} {records : List ProcessRecord}
    {happenings : List Happening} (held : ∀ record ∈ records, HasRecord shared.processes record)
    (run : (reconcileSystem config).Run (start shared leases claim records) happenings state) :
    state.Sound config ∧ state.pass.records = records ∧ state.pass.claim = claim := by
  refine run.keeps
    (fun state => state.Sound config ∧ state.pass.records = records ∧ state.pass.claim = claim) ?_
    ⟨⟨rfl, held, fun record listed acted => absurd listed acted, rfl⟩, rfl, rfl⟩
  rintro before after happening rfl ⟨sound, given, claimed⟩
  have later := (sound.step_moves happening).later
  exact ⟨sound.step happening, later.records.trans given, later.claim.trans claimed⟩

/-- A reconciliation in which what `apply` writes can always be recorded. -/
def currentSystem (config : Config) : System Reconciliation Happening :=
  (reconcileSystem config).restrict fun state happening => state.isCurrent happening = true

theorem run_accounts {shared : Shared} {claim : RunnerClaim} {records : List ProcessRecord}
    {happenings : List Happening} (held : ∀ record ∈ records, HasRecord shared.processes record)
    (run : (currentSystem config).Run (start shared leases claim records) happenings state) :
    state.Accounts := by
  have sound : (start shared leases claim records).Sound config := (run_sound held (.refl _)).1
  refine (run.keeps (fun state => state.Sound config ∧ state.Accounts) ?_
    ⟨sound, fun _ record listed acted => absurd listed acted⟩).2
  rintro before after happening ⟨current, rfl⟩ ⟨sound, accounts⟩
  exact ⟨sound.step happening, accounts.step sound current⟩

end Reconciliation

/-- After a reconciliation, a workspace that is left open is accounted for, as long as what `apply` writes
can be recorded, and one for which something is to be decided by an operator is left to them. The store
has the records that the reconciliation is given, and the Runner states the status of the process it was
asked about. What can no longer be recorded leaves its execution unaccounted for, and bars nothing. -/
theorem reconcile_accounts_for_open_workspaces {shared : Shared} {claim : RunnerClaim}
    {records : List ProcessRecord} {happenings : List Happening}
    (held : ∀ record ∈ records, HasRecord shared.processes record)
    (run : (reconcileSystem config).Run (.start shared leases claim records) happenings state) :
    (state.pass.stage = .tells → ∀ refusal,
      (∀ workspaceId, (state.bars refusal).lookup workspaceId = none →
        ((Reconciliation.currentSystem config).Run (.start shared leases claim records) happenings state →
          state.Named → ∀ record ∈ records, record.workspaceId = workspaceId →
            record.phase ≠ .terminal → state.Resolved record) ∧
        (∀ entry ∈ suspects claim records, ¬ state.RunsIn entry.processId workspaceId) ∧
        (workspaceId ∈ claim.barrier →
          workspaceId ∈ reconciledWorkspaces claim state.pass.bars ∧ refusal = none)) ∧
      ∀ record ∈ records, ∀ reason, state.decide config record = .blocked reason →
        ∃ why, (state.bars refusal).lookup record.workspaceId = some (.blocked why)) ∧
    ∀ env, state.isCurrent (.proceeds env) = false →
      (state.step config (.proceeds env)).pass.bars = state.pass.bars ∧
        ∃ record ∈ records, ¬ (state.step config (.proceeds env)).Resolved record := by
  obtain ⟨sound, rfl, rfl⟩ := Reconciliation.run_sound held run
  refine ⟨fun tells refusal => ?_, fun env late => ?_⟩
  · have acted (record : ProcessRecord) : record ∉ state.ahead := by
      rw [Reconciliation.ahead_eq_nil (.inr tells)]
      exact List.not_mem_nil
    have grown : Bars.Grow state.pass.bars (state.bars refusal) := Pass.barUntold_grow ..
    have suspected := sound.stage
    rw [Reconciliation.AtStage, tells] at suspected
    refine ⟨fun workspaceId isOpen => ?_, fun record given reason decided => ?_⟩
    · have free : state.pass.bars.lookup workspaceId = none := grown.free isOpen
      refine ⟨?_, ?_, fun inBarrier => ?_⟩
      · rintro current named record given rfl unended
        have accounts := Reconciliation.run_accounts held current
        refine (accounts named record given (acted record) unended).resolve_right fun barred => ?_
        rw [Reconciliation.Barred, free] at barred
        contradiction
      · intro entry listed runs
        obtain ⟨why, isBlocked⟩ := suspected entry listed workspaceId runs
        cases free.symm.trans isBlocked
      · exact Pass.barUntold_open isOpen inBarrier
    · obtain ⟨why, isBlocked⟩ := sound.blocked record given (acted record) reason decided
      exact ⟨why, grown.blocked isBlocked⟩
  · unfold Reconciliation.isCurrent at late
    dsimp only at late
    split at late
    next given _ _ stage =>
      rw [Bool.or_eq_false_iff] at late
      have applies := Reconciliation.proceed_applies stage sound env
      have isWritten : env.unwritten.isNone = true := by simpa using late.1
      cases stored : state.shared.processes.find? given.processId with
      | none => simp [stored] at late
      | some =>
          have unresolved := applies.unresolved sound isWritten stored (by simpa [stored] using late.2)
          exact ⟨unresolved.2, given, (applies.given_decided sound).1, unresolved.1⟩
    · contradiction

theorem reconcile_run (config : Config) (state : Reconciliation) (happenings : List Happening) :
    (reconcileSystem config).Run state happenings (happenings.foldl (·.step config) state) := by
  induction happenings generalizing state with
  | nil => exact .refl state
  | cons _ _ ih => exact .cons rfl (ih _)

/-- The happenings of a reconciliation, if each finds that what `apply` writes can be recorded. -/
def Reconciliation.areCurrent (config : Config) (state : Reconciliation) : List Happening → Bool
  | [] => true
  | happening :: rest => state.isCurrent happening && (state.step config happening).areCurrent config rest

theorem Reconciliation.current_run {happenings : List Happening}
    (current : state.areCurrent config happenings = true) :
    (currentSystem config).Run state happenings (happenings.foldl (·.step config) state) := by
  induction happenings generalizing state with
  | nil => exact .refl state
  | cons _ _ ih =>
      obtain ⟨here, later⟩ := Bool.and_eq_true_iff.mp current
      exact .cons ⟨here, rfl⟩ (ih later)

def PassStage.telling : PassStage → Bool
  | .tells => true
  | _ => false

theorem PassStage.telling_eq {stage : PassStage} (telling : stage.telling = true) : stage = .tells := by
  cases stage with
  | tells => rfl
  | _ => contradiction

/-- An execution that was never received, and one that runs: both workspaces are left open. -/
theorem open_workspaces_of_two_records :
    let config : Config := { independent := true, hash := fun _ => "", unreadableParams := fun _ => "" }
    let runner : RunnerRef := { bootId := none, pid := 1, startedAtMs := 0, nonce := "n" }
    let lost : ProcessRecord :=
      { processId := "p1", runner := runner, controllerEpoch := some 1, workspaceId := "w1"
        approvalId := none }
    let running : ProcessRecord :=
      { processId := "p2", runner := runner, controllerEpoch := some 1, workspaceId := "w2"
        approvalId := none, phase := .running }
    let status : RunnerProcessStatus := { processId := "p2", running := true }
    let recalled := [("p1", Recalled.notReceived), ("p2", .held "w2" status)]
    let shared : Shared :=
      { processes := ⟨[lost, running], by decide⟩, runner := runner, link := .linked none }
    let claim : RunnerClaim := { epoch := 2, barrier := ["w1"] }
    let first := Reconciliation.start shared {} claim [lost, running]
    let happenings := [Happening.proceeds {}, .proceeds { answers := { recalled := .ok recalled } }] ++
      List.replicate 4 (.proceeds {})
    let last := happenings.foldl (·.step config) first
    last.Resolved lost ∧ last.Resolved running ∧ "w1" ∈ reconciledWorkspaces claim last.pass.bars := by
  intro config runner lost running status recalled shared claim first happenings last
  have held : ∀ record ∈ [lost, running], HasRecord shared.processes record := by
    intro record listed
    simp only [List.mem_cons, List.not_mem_nil, or_false] at listed
    rcases listed with rfl | rfl
    · exact ⟨lost, by decide, rfl, by decide⟩
    · exact ⟨running, by decide, rfl, by decide⟩
  have answers : last.pass.recalled = .ok recalled := by decide +kernel
  have named : last.Named := by
    rintro processId workspaceId stated ⟨remembered, is, found⟩
    cases answers.symm.trans is
    obtain ⟨_, _, listed, -⟩ := List.lookup_eq_some_iff.mp found
    have present : (processId, Recalled.held workspaceId stated) ∈ recalled := by simp [listed]
    simp only [recalled, List.mem_cons, Prod.mk.injEq, reduceCtorEq, and_false, false_or,
      List.not_mem_nil, or_false, Recalled.held.injEq] at present
    obtain ⟨rfl, rfl, rfl⟩ := present
    rfl
  have opened : (last.bars none).lookup "w1" = none ∧ (last.bars none).lookup "w2" = none := by
    decide +kernel
  have accounts := (reconcile_accounts_for_open_workspaces held
    (reconcile_run config first happenings)).1 (PassStage.telling_eq (by decide +kernel)) none
  have current : (Reconciliation.currentSystem config).Run first happenings last :=
    Reconciliation.current_run (by decide +kernel)
  have left := accounts.1 "w1" opened.1
  have right := accounts.1 "w2" opened.2
  exact ⟨left.1 current named lost (by simp) rfl (by decide),
    right.1 current named running (by simp) rfl (by decide), (left.2.2 (by decide)).1⟩

/-- The Runner never received the execution, and it is lost before `apply` acts: the record says unknown,
and no operator is asked about the workspace, which is open. -/
theorem lost_runner_leaves_an_open_workspace : ∃ config shared claim records happenings state,
      (∀ record ∈ records, HasRecord shared.processes record) ∧
      (reconcileSystem config).Run (.start shared {} claim records) happenings state ∧
      state.pass.stage = .tells ∧ state.Named ∧
      ∃ record ∈ records, record.phase = .dispatching ∧
        (state.shared.processes.find? record.processId).map ProcessRecord.phase = some .unknown ∧
        (state.bars none).lookup record.workspaceId = none ∧ ¬ state.Resolved record := by
  let config : Config := { independent := true, hash := fun _ => "", unreadableParams := fun _ => "" }
  let runner : RunnerRef := { bootId := none, pid := 1, startedAtMs := 0, nonce := "n" }
  let sent : ProcessRecord :=
    { processId := "p1", runner := runner, controllerEpoch := some 1, workspaceId := "w"
      approvalId := none }
  let shared : Shared := { processes := ⟨[sent], by decide⟩, runner := runner, link := .linked none }
  let claim : RunnerClaim := { epoch := 2 }
  let first := Reconciliation.start shared {} claim [sent]
  let happenings := [Happening.proceeds {},
      .proceeds { answers := { recalled := .ok [("p1", .notReceived)] } },
      .records (.recordRunnerLost runner .runnerLost)] ++ List.replicate 3 (.proceeds {})
  let last := happenings.foldl (·.step config) first
  have held : ∀ record ∈ [sent], HasRecord shared.processes record := by
    intro record listed
    rcases List.mem_singleton.mp listed with rfl
    exact ⟨sent, by decide, rfl, by decide⟩
  have answers : last.pass.recalled = .ok [("p1", .notReceived)] := by decide +kernel
  have unheld {processId workspaceId : String} {status : RunnerProcessStatus} :
      ¬ Answered last.pass.recalled processId (.held workspaceId status) := by
    rintro ⟨remembered, is, found⟩
    cases answers.symm.trans is
    rw [List.lookup_cons] at found
    split at found <;> simp at found
  have kept : (last.shared.processes.find? "p1").map ProcessRecord.phase = some .unknown := by
    decide +kernel
  refine ⟨config, shared, claim, [sent], happenings, last, held, reconcile_run config first happenings,
    PassStage.telling_eq (by decide +kernel), fun _ _ _ answered => absurd answered unheld, sent,
    by simp, rfl, kept, by decide +kernel, fun resolved => ?_⟩
  obtain ⟨_, stored, phase⟩ := Option.map_eq_some_iff.mp kept
  cases resolved with
  | ended recorded | notStarted recorded =>
      obtain ⟨_, found, terminal, -⟩ := recorded
      cases stored.symm.trans found
      cases phase.symm.trans terminal
  | running answered => exact unheld answered

end CodeSpace.Server
