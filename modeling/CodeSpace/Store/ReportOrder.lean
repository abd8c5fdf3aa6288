import CodeSpace.Data.Fold
import CodeSpace.Store.ProcessReports

namespace CodeSpace.Store

open Data

/-! The reports about an execution come from several tasks in any order: each of them adds to what the
record knows, and reports that agree lead to the same state in every order. -/

def ProcessPhase.later : ProcessPhase → ProcessPhase → ProcessPhase
  | .terminal, _ | _, .terminal => .terminal
  | .unknown, _ | _, .unknown => .unknown
  | .running, _ | _, .running => .running
  | .dispatching, .dispatching => .dispatching

theorem ProcessPhase.later_later_comm (phase first second : ProcessPhase) :
    (phase.later first).later second = (phase.later second).later first := by
  cases phase <;> cases first <;> cases second <;> rfl

@[simp]
theorem ProcessPhase.later_later_self (phase told : ProcessPhase) :
    (phase.later told).later told = phase.later told := by
  cases phase <;> cases told <;> rfl

@[simp]
theorem ProcessPhase.later_dispatching (phase : ProcessPhase) : phase.later .dispatching = phase := by
  cases phase <;> rfl

def furthest : Option Nat → Option Nat → Option Nat
  | some seen, some cursor => some (max seen cursor)
  | some seen, none => some seen
  | none, cursor => cursor

theorem furthest_furthest_comm (seen first second : Option Nat) :
    furthest (furthest seen first) second = furthest (furthest seen second) first := by
  cases seen <;> cases first <;> cases second <;>
    simp [furthest, Nat.max_comm, Nat.max_left_comm]

@[simp]
theorem furthest_furthest_self (seen cursor : Option Nat) :
    furthest (furthest seen cursor) cursor = furthest seen cursor := by
  cases seen <;> cases cursor <;> simp [furthest]

@[simp]
theorem furthest_none (seen : Option Nat) : furthest seen none = seen := by
  cases seen <;> rfl

theorem or_or_comm {Value : Type*} (value : Option Value) {first second : Option Value}
    (agree : ∀ left ∈ first, ∀ right ∈ second, left = right) :
    (value.or first).or second = (value.or second).or first := by
  cases value with
  | some => rfl
  | none =>
      cases first with
      | none => simp
      | some left =>
          cases second with
          | none => simp
          | some right => simp [agree left rfl right rfl]

/-- How an execution ended, as a report names it. -/
@[ext]
structure Ending where
  termination : ProcessTermination
  exitCode : Option Int
  signal : Option Int

/-- How an execution ended, as its record has it. -/
structure RecordedEnding where
  outcome : Option ProcessOutcome
  exitCode : Option Int
  signal : Option Int
deriving DecidableEq, Repr

namespace RecordedEnding

/-- The first ending that is named is recorded. -/
def learn (recorded : RecordedEnding) (told : Option Ending) : RecordedEnding :=
  match recorded.outcome, told with
  | none, some ending => ⟨some (.ended ending.termination), ending.exitCode, ending.signal⟩
  | _, _ => recorded

theorem learn_comm (recorded : RecordedEnding) {first second : Option Ending}
    (agree : ∀ left ∈ first, ∀ right ∈ second, left = right) :
    (recorded.learn first).learn second = (recorded.learn second).learn first := by
  obtain ⟨outcome, _⟩ := recorded
  cases outcome with
  | some => rfl
  | none =>
      cases first with
      | none => cases second <;> rfl
      | some left =>
          cases second with
          | none => rfl
          | some right => rw [agree left rfl right rfl]

theorem learn_idem (recorded : RecordedEnding) (told : Option Ending) :
    (recorded.learn told).learn told = recorded.learn told := by
  obtain ⟨outcome, _⟩ := recorded
  cases outcome <;> cases told <;> rfl

theorem learn_unstarted {recorded : RecordedEnding} {told : Option Ending}
    (unstarted : (recorded.learn told).outcome = some .notStarted) :
    recorded.outcome = some .notStarted := by
  obtain ⟨outcome, _⟩ := recorded
  cases outcome with
  | some => exact unstarted
  | none => cases told <;> simp [learn] at unstarted

end RecordedEnding

/-- What a record says of its execution, but for the loss of its Runner and its release. -/
structure ProcessState where
  phase : ProcessPhase
  ending : RecordedEnding
  root : Option RootProcess
  deadlineAtMs : Option Nat
  outputCursor : Option Nat
deriving DecidableEq, Repr

def ProcessRecord.state (record : ProcessRecord) : ProcessState where
  phase := record.phase
  ending := ⟨record.outcome, record.exitCode, record.signal⟩
  root := record.root
  deadlineAtMs := record.deadlineAtMs
  outputCursor := record.outputCursor

/-- What a report tells of an execution. -/
structure Told where
  phase : ProcessPhase := .dispatching
  ending : Option Ending := none
  root : Option RootProcess := none
  deadlineAtMs : Option Nat := none
  outputCursor : Option Nat := none

structure Told.Agree (first second : Told) : Prop where
  ending : ∀ left ∈ first.ending, ∀ right ∈ second.ending, left = right
  root : ∀ left ∈ first.root, ∀ right ∈ second.root, left = right
  deadlineAtMs : ∀ left ∈ first.deadlineAtMs, ∀ right ∈ second.deadlineAtMs, left = right

namespace ProcessState

def learn (state : ProcessState) (told : Told) : ProcessState where
  phase := state.phase.later told.phase
  ending := state.ending.learn told.ending
  root := state.root.or told.root
  deadlineAtMs := state.deadlineAtMs.or told.deadlineAtMs
  outputCursor := furthest state.outputCursor told.outputCursor

theorem learn_comm (state : ProcessState) {first second : Told} (agree : first.Agree second) :
    (state.learn first).learn second = (state.learn second).learn first := by
  simp only [learn, mk.injEq]
  exact ⟨ProcessPhase.later_later_comm _ _ _, state.ending.learn_comm agree.ending,
    or_or_comm _ agree.root, or_or_comm _ agree.deadlineAtMs, furthest_furthest_comm _ _ _⟩

theorem learn_idem (state : ProcessState) (told : Told) :
    (state.learn told).learn told = state.learn told := by
  simp [learn, RecordedEnding.learn_idem, Option.or_assoc]

theorem learn_nothing (state : ProcessState) : state.learn {} = state := by
  simp [learn, RecordedEnding.learn]

end ProcessState

/-- What a call tells the record of an execution; nothing when it is another's. -/
def ProcessCall.told (record : ProcessRecord) : ProcessCall → Told
  | .recordRunning runner processId root deadlineAtMs =>
      if record.processId = processId && record.runner = runner then
        { phase := .running, root := root, deadlineAtMs := deadlineAtMs.map toSql }
      else {}
  | .recordEnd runner processId (.ended termination exitCode signal outputTotal) =>
      if record.processId = processId && record.runner = runner && record.outcome ≠ some .notStarted then
        { phase := .terminal
          ending := termination.map fun termination => ⟨termination, exitCode, signal⟩
          outputCursor := outputTotal.map toSql }
      else {}
  | .recordOutput runner processId cursor =>
      if record.processId = processId && record.runner = runner then
        { outputCursor := some (toSql cursor) }
      else {}
  | .recordRunnerLost lost _ => if record.runner = lost.stored then { phase := .unknown } else {}
  | .recordEnd _ _ .notStarted | .releaseRecord _ _ => {}

/-- The call tells that an execution never started. -/
def ProcessCall.unstarts (processId : String) : ProcessCall → Bool
  | .recordEnd _ id .notStarted => id = processId
  | _ => false

variable {call : ProcessCall} {next : ProcessRecord}

theorem ProcessCall.of_unstarts {processId : String} (unstarts : call.unstarts processId = true) :
    ∃ runner, call = .recordEnd runner processId .notStarted := by
  cases call with
  | recordEnd runner _ how =>
      cases how with
      | notStarted =>
          rw [← of_decide_eq_true unstarts]
          exact ⟨runner, rfl⟩
      | ended => contradiction
  | recordRunning | recordOutput | recordRunnerLost | releaseRecord => contradiction

theorem ProcessCall.told_congr {record : ProcessRecord} (runner : next.runner = record.runner)
    (processId : next.processId = record.processId)
    (unstarted : next.outcome = some .notStarted ↔ record.outcome = some .notStarted)
    (call : ProcessCall) : call.told next = call.told record := by
  cases call with
  | recordEnd _ _ how => cases how <;> simp [told, runner, processId, unstarted]
  | recordRunning | recordOutput | recordRunnerLost | releaseRecord => simp [told, runner, processId]

namespace ProcessCall

variable {record : ProcessRecord} {call : ProcessCall}

/-- Where what a call tells comes from, but for the phase and the output. -/
inductive Tells (record : ProcessRecord) (told : Told) : ProcessCall → Prop
  | nothing (call : ProcessCall) (root : told.root = none) (deadlineAtMs : told.deadlineAtMs = none)
      (ending : told.ending = none) : Tells record told call
  | start (runner : RunnerRef) (deadlineAtMs : Option Nat)
      (deadline : told.deadlineAtMs = deadlineAtMs.map toSql) (ending : told.ending = none) :
      Tells record told (.recordRunning runner record.processId told.root deadlineAtMs)
  | ending (runner : RunnerRef) (termination : Option ProcessTermination)
      (exitCode signal : Option Int) (outputTotal : Option Nat) (root : told.root = none)
      (deadlineAtMs : told.deadlineAtMs = none)
      (ending : told.ending = termination.map fun termination => ⟨termination, exitCode, signal⟩) :
      Tells record told (.recordEnd runner record.processId
        (.ended termination exitCode signal outputTotal))

theorem told_tells (record : ProcessRecord) (call : ProcessCall) :
    Tells record (call.told record) call := by
  cases call with
  | recordRunning =>
      dsimp only [told]
      split
      next own =>
        simp only [Bool.and_eq_true, decide_eq_true_eq] at own
        obtain ⟨rfl, rfl⟩ := own
        exact .start _ _ rfl rfl
      · exact .nothing _ rfl rfl rfl
  | recordEnd _ _ how =>
      cases how with
      | notStarted => exact .nothing _ rfl rfl rfl
      | ended =>
          dsimp only [told]
          split
          next own =>
            simp only [Bool.and_eq_true, decide_eq_true_eq] at own
            obtain ⟨⟨rfl, rfl⟩, _⟩ := own
            exact .ending _ _ _ _ _ rfl rfl rfl
          · exact .nothing _ rfl rfl rfl
  | recordOutput | recordRunnerLost =>
      dsimp only [told]
      split <;> exact .nothing _ rfl rfl rfl
  | releaseRecord => exact .nothing _ rfl rfl rfl

variable {told : Told}

variable (tells : Tells record told call)
include tells

theorem Tells.root_named {root : RootProcess} (named : root ∈ told.root) :
    ∃ runner deadlineAtMs, call = .recordRunning runner record.processId (some root) deadlineAtMs := by
  cases tells with
  | nothing _ absent | ending _ _ _ _ _ absent => simp [absent] at named
  | start runner deadlineAtMs => exact ⟨runner, deadlineAtMs, by rw [named]⟩

theorem Tells.deadline_named {deadline : Nat} (named : deadline ∈ told.deadlineAtMs) :
    ∃ runner root given, call = .recordRunning runner record.processId root (some given) ∧
      toSql given = deadline := by
  cases tells with
  | nothing _ _ absent | ending _ _ _ _ _ _ absent => simp [absent] at named
  | start runner _ same =>
      rw [same] at named
      obtain ⟨given, rfl, clamped⟩ := Option.map_eq_some_iff.mp named
      exact ⟨runner, told.root, given, rfl, clamped⟩

theorem Tells.ending_named {ending : Ending} (named : ending ∈ told.ending) :
    ∃ runner outputTotal, call = .recordEnd runner record.processId
      (.ended (some ending.termination) ending.exitCode ending.signal outputTotal) := by
  cases tells with
  | nothing _ _ _ absent | start _ _ _ absent => simp [absent] at named
  | ending runner _ _ _ outputTotal _ _ same =>
      rw [same] at named
      obtain ⟨_, rfl, rfl⟩ := Option.map_eq_some_iff.mp named
      exact ⟨runner, outputTotal, rfl⟩

end ProcessCall

theorem ProcessRecord.observedOutput_state (record : ProcessRecord) (cursor : Nat) :
    (record.observedOutput cursor).written.state =
      { record.written.state with
        outputCursor := (record.observedOutput cursor).written.outputCursor } := by
  unfold observedOutput
  split <;> rfl

theorem ProcessRecord.terminated_state (record : ProcessRecord)
    (termination : Option ProcessTermination) (exitCode signal : Option Int) :
    (record.terminated termination exitCode signal).written.state =
      { record.written.state with
        phase := .terminal
        ending := record.state.ending.learn
          (termination.map fun termination => ⟨termination, exitCode, signal⟩) } := by
  cases recorded : record.outcome with
  | some => simp [terminated, state, written, RecordedEnding.learn, recorded]
  | none => cases termination <;> simp [terminated, state, written, RecordedEnding.learn, recorded]

namespace StoredRecord

variable (record : StoredRecord)

theorem deadlineAtMs_fits : record.deadlineAtMs.map toSql = record.deadlineAtMs :=
  congrArg ProcessRecord.deadlineAtMs record.fits

theorem outputCursor_fits : record.outputCursor.map toSql = record.outputCursor :=
  congrArg ProcessRecord.outputCursor record.fits

theorem observed_cursor (cursor : Nat) (same : next.outputCursor = record.outputCursor) :
    (next.observedOutput cursor).written.outputCursor =
      furthest record.outputCursor (some (toSql cursor)) := by
  have fits := record.outputCursor_fits
  unfold ProcessRecord.observedOutput
  rw [same]
  cases seen : record.outputCursor with
  | none => rfl
  | some offset =>
      rw [seen] at fits
      have bounded : toSql offset = offset := Option.some.inj fits
      split
      next further =>
        have below : offset < cursor := of_decide_eq_true further
        simp only [ProcessRecord.written, furthest, Option.map_some, Option.some.injEq]
        unfold toSql at *
        omega
      next further =>
        have above : cursor ≤ offset := by simpa using further
        simp only [ProcessRecord.written, same, seen, furthest, Option.map_some, Option.some.injEq]
        unfold toSql at *
        omega

theorem started_state (root : Option RootProcess) (deadlineAtMs : Option Nat) :
    (record.started root deadlineAtMs).written.state = record.state.learn
      { phase := .running, root := root, deadlineAtMs := deadlineAtMs.map toSql } := by
  have deadline : (record.deadlineAtMs.or deadlineAtMs).map toSql =
      record.deadlineAtMs.or (deadlineAtMs.map toSql) := by
    rw [← record.deadlineAtMs_fits]
    cases record.deadlineAtMs <;> simp
  have phase : (if record.phase = .dispatching then .running else record.phase) =
      record.phase.later .running := by
    cases record.phase <;> rfl
  simp [ProcessRecord.state, ProcessState.learn, ProcessRecord.written, ProcessRecord.started, deadline,
    phase, record.outputCursor_fits, RecordedEnding.learn]

theorem ended_state (termination : Option ProcessTermination) (exitCode signal : Option Int)
    (outputTotal : Option Nat) (started : record.outcome ≠ some .notStarted) :
    (record.ended (.ended termination exitCode signal outputTotal)).written.state = record.state.learn
        { phase := .terminal
          ending := termination.map fun termination => ⟨termination, exitCode, signal⟩
          outputCursor := outputTotal.map toSql } := by
  have terminated := record.terminated_state termination exitCode signal
  rw [record.fits] at terminated
  have cursor : (record.terminated termination exitCode signal).outputCursor = record.outputCursor := by
    unfold ProcessRecord.terminated
    split <;> rfl
  have phase : record.phase.later .terminal = .terminal := by
    cases record.phase <;> rfl
  dsimp only [ProcessRecord.ended]
  rw [if_neg started]
  cases outputTotal with
  | none =>
      rw [terminated]
      simp [ProcessState.learn, ProcessRecord.state, phase]
  | some total =>
      dsimp only
      rw [ProcessRecord.observedOutput_state, terminated, record.observed_cursor total cursor]
      simp [ProcessState.learn, ProcessRecord.state, phase]

theorem observed_state (cursor : Nat) : (record.observedOutput cursor).written.state =
    record.state.learn { outputCursor := some (toSql cursor) } := by
  rw [ProcessRecord.observedOutput_state, record.observed_cursor cursor rfl, record.fits]
  simp [ProcessState.learn, ProcessRecord.state, RecordedEnding.learn]

theorem apply_state (started : call.unstarts record.processId = false) :
    (record.apply call).state = record.state.learn (call.told record.toProcessRecord) := by
  cases call with
  | recordRunning _ _ root deadlineAtMs =>
      dsimp only [apply, ProcessRecord.apply, ProcessCall.told]
      split
      · exact record.started_state root deadlineAtMs
      · exact (record.state.learn_nothing).symm
  | recordOutput _ _ cursor =>
      dsimp only [apply, ProcessRecord.apply, ProcessCall.told]
      split
      · exact record.observed_state cursor
      · exact (record.state.learn_nothing).symm
  | releaseRecord =>
      dsimp only [apply, ProcessRecord.apply, ProcessCall.told]
      rw [record.state.learn_nothing]
      split <;> rfl
  | recordRunnerLost lost =>
      by_cases own : record.runner = lost.stored
      · simp only [apply, ProcessRecord.apply, ProcessCall.told, own, decide_true, Bool.true_and, if_true]
        cases phase : record.phase <;>
          simp [ProcessState.learn, ProcessRecord.state, ProcessRecord.becomeUnknown,
            ProcessPhase.later, RecordedEnding.learn, phase]
      · simp [apply, ProcessRecord.apply, ProcessCall.told, own, ProcessState.learn_nothing]
  | recordEnd runner processId how =>
      cases how with
      | notStarted =>
          have apart : ¬ record.processId = processId := fun same => by
            simp [ProcessCall.unstarts, same] at started
          simp [apply, ProcessRecord.apply, ProcessCall.told, apart, ProcessState.learn_nothing]
      | ended termination exitCode signal outputTotal =>
          dsimp only [apply, ProcessRecord.apply, ProcessCall.told]
          by_cases own : (record.processId = processId && record.runner = runner) = true
          · by_cases unstarted : record.outcome = some .notStarted
            · simp [own, unstarted, ProcessRecord.ended, record.fits, ProcessState.learn_nothing]
            · simp only [own, unstarted, if_true, ne_eq, not_false_eq_true, decide_true, Bool.and_true]
              exact record.ended_state termination exitCode signal outputTotal unstarted
          · simp [own, ProcessState.learn_nothing]

theorem apply_cursor (call : ProcessCall) :
    ∀ seen ∈ record.outputCursor, ∃ now ∈ (record.apply call).outputCursor, seen ≤ now := by
  intro seen isSeen
  cases unstarts : call.unstarts record.processId with
  | false =>
      have cursor : (record.apply call).outputCursor =
          furthest record.outputCursor (call.told record.toProcessRecord).outputCursor :=
        congrArg ProcessState.outputCursor (record.apply_state unstarts)
      rw [cursor, isSeen]
      cases (call.told record.toProcessRecord).outputCursor with
      | none => exact ⟨seen, rfl, Nat.le_refl _⟩
      | some further => exact ⟨max seen further, rfl, Nat.le_max_left _ _⟩
  | true =>
      obtain ⟨_, rfl⟩ := ProcessCall.of_unstarts unstarts
      refine ⟨seen, ?_, Nat.le_refl _⟩
      dsimp only [apply, ProcessRecord.apply, ProcessRecord.ended]
      split
      · rw [← record.outputCursor_fits] at isSeen
        split <;> exact isSeen
      · exact isSeen

theorem told_apply (started : call.unstarts record.processId = false) (other : ProcessCall) :
    other.told (record.apply call).toProcessRecord = other.told record.toProcessRecord := by
  have applied := record.apply_applied call
  obtain ⟨runner, processId⟩ := applied.identity
  refine ProcessCall.told_congr runner processId ⟨fun said => ?_, applied.outcome record.settled⟩ other
  have learned : (record.apply call).outcome = _ :=
    congrArg (·.ending.outcome) (record.apply_state started)
  exact RecordedEnding.learn_unstarted (learned.symm.trans said)

theorem applyAll_state {calls : List ProcessCall}
    (started : ∀ call ∈ calls, call.unstarts record.processId = false) :
    (record.applyAll calls).state =
      calls.foldl (fun state call => state.learn (call.told record.toProcessRecord)) record.state := by
  induction calls generalizing record with
  | nil => rfl
  | cons call _ ih =>
      have head := started call List.mem_cons_self
      have same : (record.apply call).processId = record.processId :=
        (record.apply_applied call).identity.2
      have rest := ih (record.apply call) fun other later => by
        rw [same]
        exact started other (List.mem_cons_of_mem _ later)
      simp only [record.told_apply head, record.apply_state head] at rest
      exact rest

end StoredRecord

/-- No call says that the execution never started, the starts agree on the root and the deadline where
they name them, and the ends that name a termination agree on it with its exit code and signal. -/
structure Agreeing (processId : String) (calls : List ProcessCall) : Prop where
  started : ∀ runner, .recordEnd runner processId .notStarted ∉ calls
  roots {first second : RunnerRef} {root other : RootProcess} {deadline next : Option Nat}
    (isFirst : .recordRunning first processId (some root) deadline ∈ calls)
    (isSecond : .recordRunning second processId (some other) next ∈ calls) : root = other
  deadlines {first second : RunnerRef} {root other : Option RootProcess} {deadline next : Nat}
    (isFirst : .recordRunning first processId root (some deadline) ∈ calls)
    (isSecond : .recordRunning second processId other (some next) ∈ calls) : deadline = next
  ends {first second : RunnerRef} {termination other : ProcessTermination}
    {exitCode signal nextCode nextSignal : Option Int} {total next : Option Nat}
    (isFirst : .recordEnd first processId (.ended (some termination) exitCode signal total) ∈ calls)
    (isSecond : .recordEnd second processId (.ended (some other) nextCode nextSignal next) ∈ calls) :
    termination = other ∧ exitCode = nextCode ∧ signal = nextSignal

namespace Agreeing

variable {processId : String} {calls : List ProcessCall}

theorem starts (agreeing : Agreeing processId calls) :
    ∀ call ∈ calls, call.unstarts processId = false := by
  intro call isCall
  cases unstarts : call.unstarts processId with
  | false => rfl
  | true =>
      obtain ⟨runner, rfl⟩ := ProcessCall.of_unstarts unstarts
      exact absurd isCall (agreeing.started runner)

theorem agree (record : ProcessRecord) (agreeing : Agreeing record.processId calls)
    {first second : ProcessCall} (isFirst : first ∈ calls) (isSecond : second ∈ calls) :
    (first.told record).Agree (second.told record) where
  ending left isLeft right isRight := by
    obtain ⟨runner, _, rfl⟩ := (first.told_tells record).ending_named isLeft
    obtain ⟨other, next, rfl⟩ := (second.told_tells record).ending_named isRight
    obtain ⟨termination, exitCode, signal⟩ := agreeing.ends isFirst isSecond
    exact Ending.ext termination exitCode signal
  root left isLeft right isRight := by
    obtain ⟨runner, _, rfl⟩ := (first.told_tells record).root_named isLeft
    obtain ⟨other, next, rfl⟩ := (second.told_tells record).root_named isRight
    exact agreeing.roots isFirst isSecond
  deadlineAtMs left isLeft right isRight := by
    obtain ⟨_, _, _, rfl, rfl⟩ := (first.told_tells record).deadline_named isLeft
    obtain ⟨_, _, _, rfl, rfl⟩ := (second.told_tells record).deadline_named isRight
    rw [agreeing.deadlines isFirst isSecond]

theorem settling (record : ProcessRecord) (agreeing : Agreeing record.processId calls) :
    Settling (fun (state : ProcessState) call => state.learn (call.told record)) calls :=
  ⟨fun isFirst isSecond state => state.learn_comm (agreeing.agree record isFirst isSecond),
    fun _ state => state.learn_idem _⟩

end Agreeing

structure MovesForward (call : ProcessCall) (before after : ProcessRecord) : Prop where
  phase : PhaseMove before.phase after.phase
  outcome : ∀ outcome, before.outcome = some outcome → after.outcome = some outcome
  unstarted : after.outcome = some .notStarted →
    before.outcome = some .notStarted ∨ before.phase = .dispatching
  outputCursor : ∀ seen ∈ before.outputCursor, ∃ now ∈ after.outputCursor, seen ≤ now
  other : call.isOf before.runner = false → after = before
  settled : before.unsettled = true → after.unsettled = false →
    (∃ how, call = .recordEnd before.runner before.processId how) ∨
      ∃ nowMs, call = .releaseRecord before.processId nowMs

/-- A record only moves forward under any calls, and reports that agree lead to the same state in any
order and however often they are made. -/
theorem process_record_only_moves_forward (records : ProcessRecords) (record : StoredRecord)
    (stored : records.find? record.processId = some record.toProcessRecord) :
    (∀ calls call, ∃ before after, (records.applyAll calls).find? record.processId = some before ∧
      (records.applyAll (calls ++ [call])).find? record.processId = some after ∧
      MovesForward call before after) ∧
    ∀ calls others, (∀ call, call ∈ calls ↔ call ∈ others) → Agreeing record.processId calls →
      ∃ first second, (records.applyAll calls).find? record.processId = some first ∧
        (records.applyAll others).find? record.processId = some second ∧
        first.phase = second.phase ∧ first.outcome = second.outcome ∧
        first.exitCode = second.exitCode ∧ first.signal = second.signal ∧ first.root = second.root ∧
        first.deadlineAtMs = second.deadlineAtMs ∧ first.outputCursor = second.outputCursor := by
  have found (calls : List ProcessCall) : (records.applyAll calls).find? record.processId =
      some (record.applyAll calls).toProcessRecord := by
    rw [ProcessRecords.find?_applyAll, stored, record.applyAll_toProcessRecord]
    rfl
  refine ⟨fun calls call => ?_, fun calls others same agreeing => ?_⟩
  · have next : record.applyAll (calls ++ [call]) = (record.applyAll calls).apply call := by
      simp [StoredRecord.applyAll]
    have applied := (record.applyAll calls).apply_applied call
    refine ⟨_, _, found calls, found _, ?_⟩
    rw [next]
    exact ⟨applied.phase, fun _ => applied.outcome (record.applyAll calls).settled,
      applied.unstarted, (record.applyAll calls).apply_cursor call, ProcessRecord.apply_of_other,
      applied.settled⟩
  · have states : (record.applyAll calls).state = (record.applyAll others).state := by
      rw [record.applyAll_state agreeing.starts,
        record.applyAll_state fun call isCall => agreeing.starts call ((same call).mpr isCall)]
      exact (agreeing.settling record.toProcessRecord).foldl_eq same _
    refine ⟨_, _, found calls, found others, ?_⟩
    simp only [ProcessRecord.state, ProcessState.mk.injEq, RecordedEnding.mk.injEq] at states
    obtain ⟨phase, ⟨outcome, exitCode, signal⟩, root, deadlineAtMs, outputCursor⟩ := states
    exact ⟨phase, outcome, exitCode, signal, root, deadlineAtMs, outputCursor⟩

/-- The reports of an execution that started, printed and ended, and of the loss of its Runner: told in
this order or the other way round, and some of them twice, they leave the same record. -/
theorem reordered_reports_leave_the_same_record :
    let runner : RunnerRef := { bootId := none, pid := 1, startedAtMs := 0, nonce := "n" }
    let record : ProcessRecord :=
      { processId := "p", runner := runner, controllerEpoch := some 1, workspaceId := "w"
        approvalId := none }
    let started : ProcessCall := .recordRunning runner "p" (some ⟨7, none⟩) (some 60000)
    let printed : ProcessCall := .recordOutput runner "p" 5
    let ended : ProcessCall := .recordEnd runner "p" (.ended (some .exited) (some 0) none (some 9))
    let lost : ProcessCall := .recordRunnerLost runner .runnerLost
    let records : ProcessRecords := ⟨[record], by decide⟩
    ∃ first second, (records.applyAll [started, printed, ended, lost]).find? "p" = some first ∧
      (records.applyAll [lost, ended, lost, printed, started, ended]).find? "p" = some second ∧
      first.phase = .terminal ∧ second.lost = some .runnerLost ∧ first.outcome = second.outcome ∧
      first.outputCursor = second.outputCursor := by
  intro runner record started printed ended lost records
  let stored : StoredRecord := { toProcessRecord := record, fits := rfl, settled := nofun }
  have agreeing : Agreeing "p" [started, printed, ended, lost] := by
    constructor
    case started => simp [started, printed, ended, lost]
    all_goals
      intros
      simp_all [started, printed, ended, lost]
  obtain ⟨_, ordered⟩ := process_record_only_moves_forward records stored rfl
  obtain ⟨first, second, isFirst, isSecond, _, outcome, _, _, _, _, outputCursor⟩ :=
    ordered [started, printed, ended, lost] [lost, ended, lost, printed, started, ended]
      (by simp only [List.mem_cons, List.not_mem_nil, or_false]; tauto) agreeing
  have phase : ((records.applyAll [started, printed, ended, lost]).find? "p").map (·.phase) =
      some .terminal := by decide +kernel
  have loss : ((records.applyAll [lost, ended, lost, printed, started, ended]).find? "p").map (·.lost) =
      some (some .runnerLost) := by decide +kernel
  rw [isFirst] at phase
  rw [isSecond] at loss
  exact ⟨first, second, isFirst, isSecond, Option.some.inj phase, Option.some.inj loss, outcome,
    outputCursor⟩

/-- The database holds a start time of at most 2⁶³ − 1 ms: a Runner of a later start than that is taken
for one of just that start. -/
theorem loss_of_a_later_runner_is_recorded :
    let sent : RunnerRef := { bootId := none, pid := 1, startedAtMs := 2 ^ 63 - 1, nonce := "n" }
    let other : RunnerRef := { sent with startedAtMs := 2 ^ 63 }
    let record : ProcessRecord :=
      { processId := "p", runner := sent, controllerEpoch := some 1, workspaceId := "w"
        approvalId := none }
    ∃ (stored : StoredRecord) (records : ProcessRecords), stored.toProcessRecord = record ∧
      records.find? "p" = some record ∧ other ≠ record.runner ∧
      (records.applyAll [.recordRunnerLost other .runnerLost]).find? "p" =
        some (record.becomeUnknown .runnerLost) := by
  intro sent other record
  exact ⟨{ toProcessRecord := record, fits := rfl, settled := nofun }, ⟨[record], by decide⟩, rfl, rfl,
    by decide, rfl⟩

end CodeSpace.Store
