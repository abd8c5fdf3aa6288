import CodeSpace.Server.Acknowledgements
import CodeSpace.Server.ReconcileOutcome

namespace CodeSpace.Server

open Store

/-! What an independent Runner and the records of its gateway know of one process, and what a section of
a reconciliation rests on and writes. -/

variable {config : Config} {env : Environment} {shared : Shared}
  {runner grown : RunnerProcesses} {ours : RunnerRef} {record : ProcessRecord} {processId : String}
  {status : RunnerProcessStatus} {call : ProcessCall}

/-- What becomes of the processes of a Runner: an end stays as it is, and what was dropped is not held
again. -/
structure RunnerProcesses.Later (runner grown : RunnerProcesses) : Prop where
  known {processId : String} {status : RunnerProcessStatus}
    (found : runner.known.lookup processId = some status) :
    ∃ now, grown.known.lookup processId = some now ∧ (status.running = false → now = status)
  held {processId : String} (created : runner.hasCreated processId = true)
    (holds : processId ∈ grown.held) : processId ∈ runner.held
  refused : runner.refused ⊆ grown.refused
  epoch : runner.epoch ≤ grown.epoch

namespace RunnerProcesses

theorem Later.refl (runner : RunnerProcesses) : runner.Later runner :=
  ⟨fun found => ⟨_, found, fun _ => rfl⟩, fun _ => id, List.Subset.refl _, Nat.le_refl _⟩

theorem hasCreated_iff : runner.hasCreated processId = true ↔
    ∃ status, runner.known.lookup processId = some status :=
  Option.isSome_iff_exists

theorem Later.created (moved : runner.Later grown) (created : runner.hasCreated processId = true) :
    grown.hasCreated processId = true := by
  obtain ⟨_, found⟩ := hasCreated_iff.mp created
  obtain ⟨now, known, _⟩ := moved.known found
  exact hasCreated_iff.mpr ⟨now, known⟩

theorem refuses_later (recalled : Except String (List (String × Recalled))) :
    runner.Later (runner.refuses recalled) := by
  cases recalled with
  | error => exact .refl runner
  | ok =>
      exact ⟨fun found => ⟨_, found, fun _ => rfl⟩, fun _ => id, List.subset_append_right _ _,
        Nat.le_refl _⟩

end RunnerProcesses

theorem RunnerProcesses.tells_iff : runner.tells processId status = true ↔
    ∃ now, runner.known.lookup processId = some now ∧ status.processId = processId ∧
      (status.running = false → status.endsAs now = true) := by
  unfold tells
  cases runner.known.lookup processId with
  | none => simp
  | some => cases status.running <;> simp

theorem RunnerProcessStatus.endsAs_iff {now : RunnerProcessStatus} : status.endsAs now = true ↔
    status.running = false ∧ now.running = false ∧ status.termination = now.termination ∧
      status.exitCode = now.exitCode ∧ status.signal = now.signal := by
  simp [endsAs, and_assoc]

section Records

/-- What holds between a record and the Runner: the record of a process that the Runner created was sent
to it, and an end that the Runner still keeps is recorded as it was. -/
structure RecordKept (runner : RunnerProcesses) (ours : RunnerRef) (record : ProcessRecord) : Prop where
  settled : record.outcome.isSome → record.phase = .terminal
  unreleased : record.runner = ours → record.releasedAtMs = none
  sent (created : runner.hasCreated record.processId = true) :
    record.runner = ours ∧ record.controllerEpoch.all (· ≤ runner.epoch) = true
  ends (terminal : record.phase = .terminal) :
    record.processId ∈ runner.refused ∨ ∃ status, runner.known.lookup record.processId = some status ∧
        (record.processId ∈ runner.held → status.running = false ∧
          record.SaysEnd status.termination status.exitCode status.signal)

/-- The call tells the record what is so of the Runner's processes, and is no operator's for a record
sent to this Runner. -/
def Justified (runner : RunnerProcesses) (ours : RunnerRef) (record : ProcessRecord) :
    ProcessCall → Prop
  | .recordEnd _ processId .notStarted => processId ∈ runner.refused
  | .recordEnd _ processId (.ended termination exitCode signal _) =>
      ∃ status, runner.known.lookup processId = some status ∧
        (processId ∈ runner.held → status.running = false ∧ termination = status.termination ∧
          exitCode = status.exitCode ∧ signal = status.signal)
  | .releaseRecord processId _ => record.processId = processId → record.runner ≠ ours
  | _ => True

variable (kept : RecordKept runner ours record)
include kept

theorem RecordKept.ends_apply {after : ProcessRecord}
    (justified : Justified runner ours record call) (applied : record.Applied call after)
    (terminal : after.phase = .terminal) :
    record.processId ∈ runner.refused ∨ ∃ status, runner.known.lookup record.processId = some status ∧
        (record.processId ∈ runner.held → status.running = false ∧
          after.SaysEnd status.termination status.exitCode status.signal) := by
  by_cases already : record.phase = .terminal
  · refine (kept.ends already).imp_right ?_
    rintro ⟨status, known, holds⟩
    exact ⟨status, known, fun held => ⟨(holds held).1, applied.saysEnd kept.settled (holds held).2⟩⟩
  · have unended : record.outcome = none := by
      by_contra recorded
      exact already (kept.settled (Option.isSome_iff_ne_none.mpr recorded))
    cases applied with
    | kept | released => exact absurd terminal already
    | started =>
        dsimp only [ProcessRecord.written, ProcessRecord.started] at terminal
        split at terminal
        · contradiction
        · exact absurd terminal already
    | observed => exact absurd (by simpa using terminal) already
    | lost => contradiction
    | ended how =>
        cases how with
        | notStarted => exact .inl justified
        | ended _ _ _ total =>
            obtain ⟨status, known, holds⟩ := justified
            refine .inr ⟨status, known, fun held => ?_⟩
            obtain ⟨isOver, rfl, rfl, rfl⟩ := holds held
            exact ⟨isOver, (record.ended_saysEnd (by simp [unended])
              (fun recorded => by simp [unended] at recorded) total).2⟩

theorem RecordKept.apply (justified : Justified runner ours record call) :
    RecordKept runner ours (record.apply call) := by
  have applied := record.apply_applied call
  obtain ⟨sameRunner, sameId⟩ := applied.identity
  constructor
  case settled => exact applied.outcome_terminal kept.settled
  case unreleased =>
    intro own
    rw [sameRunner] at own
    have unreleased := kept.unreleased own
    generalize record.apply call = after at applied
    cases applied with
    | kept | started | lost => exact unreleased
    | ended how =>
        obtain ⟨_, _, _, _, _, same⟩ := record.ended_eq how
        rw [same]
        exact unreleased
    | observed cursor => exact (record.observedOutput_releasedAtMs cursor).trans unreleased
    | released => exact absurd own (justified rfl)
  case sent =>
    intro created
    rw [sameId] at created
    rw [sameRunner, applied.request.1]
    exact kept.sent created
  case ends =>
    intro terminal
    rw [sameId]
    exact kept.ends_apply justified applied terminal

/-- The Runner goes on; a process that it creates was sent to it, under its last Claim at most. -/
theorem RecordKept.later (moved : runner.Later grown)
    (created : grown.hasCreated record.processId = true → runner.hasCreated record.processId = true ∨
      record.runner = ours ∧ record.controllerEpoch.all (· ≤ grown.epoch) = true) :
    RecordKept grown ours record := by
  refine ⟨kept.settled, kept.unreleased, fun isCreated => ?_, fun terminal => ?_⟩
  · rcases created isCreated with before | now
    · obtain ⟨own, sent⟩ := kept.sent before
      refine ⟨own, ?_⟩
      cases epoch : record.controllerEpoch with
      | none => rfl
      | some =>
          simp only [epoch, Option.all_some, decide_eq_true_eq] at sent ⊢
          exact Nat.le_trans sent moved.epoch
    · exact now
  · rcases kept.ends terminal with never | ⟨status, known, holds⟩
    · exact .inl (moved.refused never)
    · obtain ⟨now, found, same⟩ := moved.known known
      refine .inr ⟨now, found, fun held => ?_⟩
      have before := holds (moved.held (RunnerProcesses.hasCreated_iff.mpr ⟨status, known⟩) held)
      rw [same before.1]
      exact before

theorem RecordKept.recordEnd_terminal {termination : Option ProcessTermination}
    {exitCode signal : Option Int} {total : Option Nat}
    (created : runner.hasCreated record.processId = true) :
    (record.apply (.recordEnd ours record.processId (.ended termination exitCode signal total))).phase =
      .terminal := by
  rw [← (kept.sent created).1]
  simp only [ProcessRecord.apply, decide_true, Bool.and_self, if_true, ProcessRecord.written_phase]
  by_cases unstarted : record.outcome = some .notStarted
  · simp only [ProcessRecord.ended, unstarted, if_true]
    exact kept.settled (by simp [unstarted])
  · dsimp only [ProcessRecord.ended]
    rw [if_neg unstarted]
    cases total <;> simp

end Records

section Passes

/-- The pass has read the records that it takes up. -/
def PassStage.hasRead : PassStage → Bool
  | .accounts | .reads | .ended => false
  | _ => true

theorem Pass.advance_hasRead (pass : Pass) (unread : pass.stage ≠ .reads)
    (read : (pass.advance config shared env).stage.stage.hasRead = true) :
    pass.stage.hasRead = true := by
  obtain ⟨_, _, _, _, _, _, stage⟩ := pass
  cases stage with
  | accounts | ended => contradiction
  | reads => exact absurd rfl unread
  | _ => rfl

theorem Pass.advance_applies {decided : List (ProcessRecord × Decision)} (pass : Pass)
    (stage : (pass.advance config shared env).stage.stage = .applies decided) :
    (∃ head, pass.stage = .applies (head :: decided)) ∨
      pass.stage = .asks ∧ ∀ pair ∈ decided, ∃ attempts losses,
        pair.2 = decideFor config.devguard shared.runner losses
          (recallFor pass.claim shared.runner pass.records env.answers.recalled) attempts pair.1 := by
  cases settling : pass.stage.settling with
  | true =>
      have settles : pass.Settles shared (pass.advance config shared env) :=
        pass.advance_settles shared settling
      rcases settles.stage with still | ⟨_, told⟩
      · rw [stage] at still
        contradiction
      · rw [stage] at told
        contradiction
  | false =>
      obtain ⟨_, _, _, _, _, _, current⟩ := pass
      cases current with
      | asks =>
          cases stage
          refine .inr ⟨rfl, fun pair isPair => ?_⟩
          obtain ⟨_, _, rfl⟩ := List.mem_map.mp isPair
          exact ⟨_, _, rfl⟩
      | applies decided =>
          cases decided with
          | nil => contradiction
          | cons head =>
              cases stage
              exact .inl ⟨head, rfl⟩
      | loses runners => cases runners <;> contradiction
      | reads =>
          dsimp only [Pass.advance] at stage
          split at stage
          · contradiction
          · split at stage <;> contradiction
      | accounts | tells | ended => contradiction
      | _ => contradiction

theorem Pass.advance_processes (pass : Pass) :
    (pass.advance config shared env).shared.processes = shared.processes ∨
      (∃ lost loss, (pass.advance config shared env).shared.processes =
        shared.processes.apply (.recordRunnerLost lost loss)) ∨
      ∃ record decision rest, pass.stage = .applies ((record, decision) :: rest) ∧
        (pass.advance config shared env).shared.processes =
          decision.record env.unwritten.isNone shared.runner record.processId shared.processes :=
  pass.advance_rule (fun _ next => next.processes = shared.processes ∨
      (∃ lost loss, next.processes = shared.processes.apply (.recordRunnerLost lost loss)) ∨
      ∃ record decision rest, pass.stage = .applies ((record, decision) :: rest) ∧ next.processes =
        decision.record env.unwritten.isNone shared.runner record.processId shared.processes)
    (fun _ _ => .inl rfl) (fun lost loss => .inr (.inl ⟨lost, loss, rfl⟩))
    (fun record decision rest stage => .inr (.inr ⟨record, decision, rest, stage, rfl⟩))
    (fun _ _ _ => .inl rfl) fun _ _ _ _ => .inl rfl

def Decision.Told (runner : RunnerProcesses) (processId : String) : Decision → Prop
  | .ended (some status) => status.processId = processId ∧
      ∃ now, runner.known.lookup processId = some now ∧ status.endsAs now = true
  | .ended none => runner.hasCreated processId = true ∧ processId ∉ runner.held
  | .notStarted => processId ∈ runner.refused
  | _ => True

variable {decision : Decision}

theorem Decision.Told.later (told : decision.Told runner processId)
    (moved : runner.Later grown) : decision.Told grown processId := by
  cases decision with
  | ended reported =>
      cases reported with
      | some =>
          obtain ⟨named, now, known, same⟩ := told
          obtain ⟨_, found, unchanged⟩ := moved.known known
          rw [unchanged (RunnerProcessStatus.endsAs_iff.mp same).2.1] at found
          exact ⟨named, now, found, same⟩
      | none => exact ⟨moved.created told.1, fun held => told.2 (moved.held told.1 held)⟩
  | notStarted => exact moved.refused told
  | _ => trivial

/-- What `apply` writes is justified by what the decision rests on. -/
theorem Decision.Told.writes (told : decision.Told runner processId)
    (written : Bool) (processes : ProcessRecords) :
    decision.record written ours processId processes = processes ∨
      ∃ call, decision.record written ours processId processes = processes.apply call ∧
        ∀ record, Justified runner ours record call := by
  cases written with
  | false => exact .inl rfl
  | true =>
      cases decision with
      | running => exact .inr ⟨.recordRunning ours processId none none, rfl, fun _ => trivial⟩
      | ended reported =>
          cases reported with
          | some status =>
              obtain ⟨rfl, now, known, same⟩ := told
              obtain ⟨_, isOver, termination, exitCode, signal⟩ := RunnerProcessStatus.endsAs_iff.mp same
              exact .inr ⟨.recordEnd ours status.processId status.ended, rfl,
                fun _ => ⟨now, known, fun _ => ⟨isOver, termination, exitCode, signal⟩⟩⟩
          | none =>
              obtain ⟨created, gone⟩ := told
              obtain ⟨now, known⟩ := RunnerProcesses.hasCreated_iff.mp created
              exact .inr ⟨.recordEnd ours processId droppedEnd, rfl,
                fun _ => ⟨now, known, fun held => absurd held gone⟩⟩
      | notStarted => exact .inr ⟨.recordEnd ours processId .notStarted, rfl, fun _ => told⟩
      | settled | pending | blocked => exact .inl rfl

/-- A decision rests on what the Runner truly answered. -/
theorem Decided.told {recalled : Except String (List (String × Recalled))}
    {attempts : List (String × Attempt)} (decided : Decided ours recalled attempts record decision)
    (recalls : ∀ answer, Answered recalled record.processId answer →
      runner.recalls record.processId answer = true)
    (refuses : ∀ answer, Answered recalled record.processId answer →
      answer = .notReceived ∨ answer = .refused → record.processId ∈ runner.refused) :
    decision.Told runner record.processId := by
  cases decided with
  | settled | pending | blocked => trivial
  | answered _ answered supports =>
      have recalled := recalls _ answered
      cases supports with
      | running | pending | blocked => trivial
      | notReceived => exact refuses _ answered (.inl rfl)
      | refused => exact refuses _ answered (.inr rfl)
      | dropped =>
          obtain ⟨created, gone⟩ := Bool.and_eq_true_iff.mp recalled
          exact ⟨created, of_decide_eq_true gone⟩
      | ended isOver =>
          obtain ⟨now, known, named, same⟩ := RunnerProcesses.tells_iff.mp recalled
          exact ⟨named, now, known, same isOver⟩

theorem Pass.advance_claim (pass : Pass) : (pass.advance config shared env).stage.claim = pass.claim ∧
      (pass.advance config shared env).shared.claims = shared.claims := by
  refine ⟨?_, pass.advance_rule (fun _ next => next.claims = shared.claims) (fun _ _ => rfl)
    (fun _ _ => rfl) (fun _ _ _ _ => rfl) (fun _ _ _ => rfl) fun _ _ _ _ => rfl⟩
  by_cases isReading : pass.stage = .reads
  · simp only [Pass.advance, isReading]
    split
    · rfl
    · split <;> rfl
  · exact (pass.advance_given shared isReading).2

theorem Pass.advance_reads (pass : Pass) (stage : pass.stage = .reads)
    (read : (pass.advance config shared env).stage.stage.hasRead = true) :
    (pass.advance config shared env).stage.records =
      shared.processes.recordsToReconcile shared.approvals shared.runner pass.claim.epoch := by
  obtain ⟨_, _⟩ := pass
  subst stage
  dsimp only [Pass.advance, Shared.readRecords] at read ⊢
  split at read
  · contradiction
  next linked =>
    rw [if_neg linked]
    cases unreadable : env.unreadable with
    | some =>
        rw [unreadable] at read
        contradiction
    | none => rfl

/-- What `reconcile` acknowledges: ends that it has just recorded, and processes of its Claim that it
does not account for. -/
theorem Pass.mem_acknowledges {pass : Pass} (listed : processId ∈ pass.acknowledges env) :
    (∃ record status rest, pass.stage = .applies ((record, .ended (some status)) :: rest) ∧
      env.unwritten.isNone = true ∧ processId = record.processId) ∨
      pass.stage.hasRead = true ∧ ∃ entry ∈ pass.claim.processes,
        entry.processId = processId ∧ accountedFor pass.records entry.processId = false := by
  unfold acknowledges at listed
  split at listed
  next record status rest stage =>
    split at listed
    next written => exact .inl ⟨record, status, rest, stage, written, List.mem_singleton.mp listed⟩
    · contradiction
  next stage =>
    refine .inr ⟨by rw [stage]; rfl, ?_⟩
    rcases List.mem_append.mp listed with suspect | ended
    · unfold endedSuspects at suspect
      split at suspect
      · contradiction
      · obtain ⟨entry, chosen, rfl⟩ := List.mem_map.mp suspect
        obtain ⟨isEntry, unaccounted⟩ := List.mem_filter.mp (List.mem_filter.mp chosen).1
        rw [Bool.and_eq_true, Bool.not_eq_true'] at unaccounted
        exact ⟨entry, isEntry, rfl, unaccounted.2⟩
    · obtain ⟨entry, chosen, rfl⟩ := List.mem_map.mp ended
      obtain ⟨isEntry, unaccounted⟩ := List.mem_filter.mp chosen
      rw [Bool.and_eq_true, Bool.not_eq_true', Bool.not_eq_true'] at unaccounted
      exact ⟨entry, isEntry, rfl, unaccounted.2⟩
  · contradiction

end Passes

end CodeSpace.Server
