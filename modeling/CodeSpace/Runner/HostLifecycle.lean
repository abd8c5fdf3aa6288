import CodeSpace.Runner.HostOutput

namespace CodeSpace.Runner

open Data Domain Transition
open Store (ProcessTermination)

/-! How a process ends, over any run of its terminations, its timeout, its reaper and its readers. -/

variable {start before after host final : HostProcess} {event : HostEvent} {notice : HostNotice}
  {label : HostLabel} {trace later : List HostLabel} {life : Lifecycle} {intent : KillIntent}
  {status : ExitStatus}

def KillIntent.termination : KillIntent → ProcessTermination
  | .timeout => .timeout
  | .terminated => .terminated

namespace Lifecycle

@[simp] theorem noteKill_finished : (life.noteKill intent).finished = life.finished := by
  unfold noteKill
  split <;> rfl

@[simp] theorem noteKill_snapshot : (life.noteKill intent).snapshot = life.snapshot := by
  unfold noteKill
  split <;> rfl

@[simp] theorem noteKill_killIntent :
    (life.noteKill intent).killIntent = some (life.killIntent.getD intent) := by
  unfold noteKill
  cases noted : life.killIntent with
  | none => simp
  | some => simp [noted]

theorem ending_termination (code signal : Option Int) :
    (ending (some intent) code signal).termination = some intent.termination := by
  cases intent <;> rfl

theorem ending_running (noted : Option KillIntent) (code signal : Option Int) :
    (ending noted code signal).running = false := by
  unfold ending
  split
  · rfl
  · rfl
  · split <;> rfl

end Lifecycle

/-- What is recorded of a process agrees with the first kill. -/
structure Agrees (life : Lifecycle) : Prop where
  told : life.finished = true → ∀ intent, life.killIntent = some intent →
    life.snapshot.termination = some intent.termination
  running : life.snapshot.running = false → life.finished = true

namespace Agrees

variable (agrees : Agrees life)
include agrees

theorem noteKill (unfinished : life.finished = false) : Agrees (life.noteKill intent) where
  told finished := by
    rw [Lifecycle.noteKill_finished, unfinished] at finished
    cases finished
  running ended := by
    rw [Lifecycle.noteKill_snapshot] at ended
    rw [Lifecycle.noteKill_finished]
    exact agrees.running ended

theorem finishWait (code signal : Option Int) : Agrees (life.finishWait code signal) := by
  unfold Lifecycle.finishWait
  split
  · exact agrees
  · refine ⟨fun _ intent noted => ?_, fun _ => rfl⟩
    have noted : life.killIntent = some intent := noted
    simp only [noted]
    exact Lifecycle.ending_termination code signal

theorem finishLost : Agrees life.finishLost := by
  unfold Lifecycle.finishLost
  split
  · exact agrees
  · refine ⟨fun _ intent noted => ?_, fun _ => rfl⟩
    have noted : life.killIntent = some intent := noted
    cases intent <;> simp [noted, KillIntent.termination]

end Agrees

theorem HostProcess.finished_of_isOver (live : host.isOver = false) :
    host.lifecycle.finished = false := by
  unfold isOver at live
  split at live
  · simp only [Bool.or_eq_false_iff] at live
    exact live.1
  · simp only [Bool.or_eq_false_iff] at live
    exact live.1.1

/-- The deadline does not pass between a termination's kill and the end of the root. -/
def Unhurried (process : HostProcess) (label : HostLabel) : Prop :=
  label.event = .timer → process.timer = .sleeping → process.isOver = false →
    process.lifecycle.killIntent ≠ some .terminated

instance (process : HostProcess) (label : HostLabel) : Decidable (Unhurried process label) :=
  inferInstanceAs (Decidable (label.event = .timer → process.timer = .sleeping →
    process.isOver = false → process.lifecycle.killIntent ≠ some .terminated))

/-- The output is marked, or about to be, only for a kill of the timeout's own. -/
structure TimeoutNoted (process : HostProcess) : Prop where
  agrees : Agrees process.lifecycle
  noted : process.timer = .killing ∨ process.timer = .marking ∨ process.output.timedOut = true →
    process.lifecycle.killIntent = some .timeout

namespace TimeoutNoted

variable (noted : TimeoutNoted before)
include noted

theorem timerStep (stepped : TimerStep before notice after)
    (unhurried : before.timer = .sleeping → before.isOver = false →
      before.lifecycle.killIntent ≠ some .terminated) : TimeoutNoted after := by
  have first (sleeping : before.timer = .sleeping) (live : before.isOver = false) :
      (before.lifecycle.noteKill .timeout).killIntent = some .timeout := by
    rw [Lifecycle.noteKill_killIntent]
    cases known : before.lifecycle.killIntent with
    | none => rfl
    | some intent =>
        cases intent with
        | timeout => rfl
        | terminated => exact absurd known (unhurried sleeping live)
  cases stepped with
  | late =>
      refine ⟨noted.agrees, fun marked => noted.noted (.inr (.inr ?_))⟩
      simpa using marked
  | kills sleeping live | notes sleeping live =>
      exact ⟨noted.agrees.noteKill (HostProcess.finished_of_isOver live), fun _ => first sleeping live⟩
  | killsNoted killing => exact ⟨noted.agrees, fun _ => noted.noted (.inl killing)⟩
  | marks marking => exact ⟨noted.agrees, fun _ => noted.noted (.inr (.inl marking))⟩

theorem waiterStep (stepped : WaiterStep before notice after) : TimeoutNoted after := by
  have kept (code signal : Option Int) :
      (before.lifecycle.finishWait code signal).killIntent = before.lifecycle.killIntent := by
    unfold Lifecycle.finishWait
    split <;> rfl
  cases stepped with
  | reported | reaps =>
      exact ⟨noted.agrees.finishWait .., fun marked => (kept ..).trans (noted.noted marked)⟩
  | finished | sees | waits | unseen | ends => exact ⟨noted.agrees, noted.noted⟩

theorem step (stepped : hostSystem.step before label after)
    (unhurried : Unhurried before label) : TimeoutNoted after := by
  obtain ⟨event, notice⟩ := label
  change before.step event = some (notice, after) at stepped
  cases event with
  | timer => exact noted.timerStep (.of_eq stepped) (unhurried rfl)
  | waiter => exact noted.waiterStep (.of_eq stepped)
  | terminates =>
      simp only [HostProcess.step, HostProcess.requestKill] at stepped
      split at stepped
      · cases stepped
        exact noted
      next live =>
        cases stepped
        have unfinished := HostProcess.finished_of_isOver (eq_false_of_ne_true live)
        refine ⟨noted.agrees.noteKill unfinished, fun marked => ?_⟩
        change (before.lifecycle.noteKill .terminated).killIntent = some .timeout
        rw [Lifecycle.noteKill_killIntent, noted.noted marked]
        rfl
  | appends =>
      simp only [HostProcess.step, Option.ite_none_right_eq_some, Option.some.injEq] at stepped
      obtain ⟨_, same⟩ := stepped
      cases same
      refine ⟨noted.agrees, fun marked => noted.noted ?_⟩
      simpa [OutputBuf.append_timedOut] using marked
  | loses =>
      have kept : before.lifecycle.finishLost.killIntent = before.lifecycle.killIntent := by
        unfold Lifecycle.finishLost
        split <;> rfl
      simp only [HostProcess.step] at stepped
      split at stepped <;> cases stepped <;>
        exact ⟨noted.agrees.finishLost, fun marked => kept.trans (noted.noted marked)⟩
  | marks =>
      simp only [HostProcess.step] at stepped
      split at stepped <;> cases stepped
      · exact ⟨⟨noted.agrees.told, noted.agrees.running⟩, noted.noted⟩
      · exact ⟨⟨noted.agrees.told, noted.agrees.running⟩, noted.noted⟩
  | pumpEnds =>
      simp only [HostProcess.step, Option.ite_none_right_eq_some, Option.some.injEq] at stepped
      obtain ⟨_, same⟩ := stepped
      cases same
      exact ⟨noted.agrees, noted.noted⟩
  | reads =>
      cases stepped
      exact noted
  | exits | reaps | reports =>
      simp only [HostProcess.step] at stepped
      split at stepped
      · cases stepped
        exact ⟨noted.agrees, noted.noted⟩
      · cases stepped

end TimeoutNoted

/-- A read that answers `TIMEOUT`. -/
def HostLabel.answersTimeout (label : HostLabel) : Bool :=
  match label.event, label.notice with
  | .reads _ _, .answered _ (.error body) => body.code = .timeout
  | _, _ => false

theorem timedOut_of_answer (stepped : hostSystem.step before label after)
    (answers : label.answersTimeout = true) : before.output.timedOut = true := by
  obtain ⟨_, _⟩ := label
  unfold HostLabel.answersTimeout at answers
  split at answers
  next isRead isAnswer =>
    cases isRead
    cases isAnswer
    simp only [hostSystem, HostProcess.step, Option.some.injEq, Prod.mk.injEq,
      HostNotice.answered.injEq] at stepped
    obtain ⟨⟨_, answered⟩, _⟩ := stepped
    unfold OutputBuf.read at answered
    split at answered
    next late => exact late.1
    · cases answered
  · cases answers

/-- Where the deadline never passes between a termination's kill and the end of the root, a read that
answers `TIMEOUT` is of a process whose termination is the timeout, once it is recorded. -/
theorem timeout_is_answered_for_a_timeout (isInitial : hostSystem.initial start)
    (run : (hostSystem.restrict Unhurried).Run start trace host) (answered : label ∈ trace)
    (answers : label.answersTimeout = true) :
    host.lifecycle.killIntent = some .timeout ∧ (host.lifecycle.snapshot.running = false →
        host.lifecycle.snapshot.termination = some .timeout) := by
  have unmarked : TimeoutNoted start ∧
      ∀ label ∈ ([] : List HostLabel), label.answersTimeout = true → start.output.timedOut = true := by
    obtain ⟨_, _, _, rfl⟩ := isInitial
    refine ⟨⟨⟨nofun, nofun⟩, ?_⟩, by simp⟩
    rintro (marked | marked | marked) <;> cases marked
  have facts : TimeoutNoted host ∧
      ∀ label ∈ trace, label.answersTimeout = true → host.output.timedOut = true := by
    refine run.records (fun trace host => TimeoutNoted host ∧
      ∀ label ∈ trace, label.answersTimeout = true → host.output.timedOut = true) ?_ unmarked
    rintro earlier before after last ⟨noted, marked⟩ ⟨unhurried, stepped⟩
    have stays := (OutputMove.of_step stepped).2.flags.2
    refine ⟨noted.step stepped unhurried, fun label isLabel answers => ?_⟩
    rcases List.mem_append.mp isLabel with earlier | isLast
    · exact stays (marked label earlier answers)
    · rw [List.mem_singleton.mp isLast] at answers
      exact stays (timedOut_of_answer stepped answers)
  have noted := facts.1.noted (.inr (.inr (facts.2 label answered answers)))
  refine ⟨noted, fun ended => ?_⟩
  exact facts.1.agrees.told (facts.1.agrees.running ended) .timeout noted

/-- A process that its timeout ends, and a read of it. -/
theorem timed_out_process_is_answered : ∃ start trace host, hostSystem.initial start ∧
      (hostSystem.restrict Unhurried).Run start trace host ∧
      trace.any HostLabel.answersTimeout = true ∧
      host.lifecycle.snapshot.termination = some .timeout := by
  have isInitial : hostSystem.initial (.spawned "p" .pipe 64) := ⟨"p", .pipe, 64, rfl⟩
  obtain ⟨trace, host, run, answers, ended⟩ := HostProcess.exists_admitted_run Unhurried
    (.spawned "p" .pipe 64)
    [.appends .stdout [97], .timer, .terminates, .timer, .reads 0 1, .exits (.signal 9), .waiter, .waiter]
    (fun trace host => trace.any HostLabel.answersTimeout = true ∧
      host.lifecycle.snapshot.running = false) (by decide +kernel)
  obtain ⟨_, answered, isTimeout⟩ := List.any_eq_true.mp answers
  exact ⟨_, trace, host, isInitial, run, answers,
    (timeout_is_answered_for_a_timeout isInitial run answered isTimeout).2 ended⟩

/-- The deadline passes while a terminated process has not ended yet: its reads answer `TIMEOUT`, and it
is recorded as terminated. -/
theorem terminated_process_answers_timeout :
    ∃ start trace host, hostSystem.initial start ∧ hostSystem.Run start trace host ∧
      trace.any HostLabel.answersTimeout = true ∧
      host.lifecycle.snapshot.termination = some .terminated := by
  obtain ⟨trace, host, run, answers, recorded⟩ := (HostProcess.spawned "p" .pipe 64).exists_run
    [.terminates, .timer, .timer, .exits (.signal 9), .reads 0 0, .waiter, .waiter]
    (fun trace host => trace.any HostLabel.answersTimeout = true ∧
      host.lifecycle.snapshot.termination = some .terminated) (by decide +kernel)
  exact ⟨_, trace, host, ⟨"p", .pipe, 64, rfl⟩, run, answers, recorded⟩

def HostLabel.isKill (label : HostLabel) : Bool :=
  match label.notice with
  | .killed _ => true
  | _ => false

def Root.isReaped : Root → Bool
  | .reaped _ => true
  | _ => false

/-- The status of a root whose end is recorded only once it is reaped. -/
def Root.snapshot (intent : Option KillIntent) : Root → LifecycleSnapshot
  | .reaped status => Lifecycle.ending intent status.code? status.signal?
  | _ => {}

/-- The status of a root that ended on its own. -/
def ExitStatus.own : ExitStatus → LifecycleSnapshot
  | .code value => { running := false, exitCode := some value, termination := some .exited }
  | .signal number => { running := false, termination := some .signaled, signal := some number }

structure PipeStages (process : HostProcess) : Prop where
  piped : process.io = .pipe
  unkilled : process.timer ≠ .killing
  observing : process.waiter = .observing → ∃ status, process.root = .exited status
  recorded : process.waiter = .joining ∨ process.waiter = .finished → process.root.isReaped = true

structure PipeKept (process : HostProcess) : Prop extends PipeStages process where
  snapshot : process.lifecycle.snapshot = process.root.snapshot process.lifecycle.killIntent
  finished : process.lifecycle.finished = process.root.isReaped

/-- Waiting for an unreaped child never fails. -/
def Waits (_ : HostProcess) (label : HostLabel) : Prop :=
  label.event ≠ .loses

instance (process : HostProcess) (label : HostLabel) : Decidable (Waits process label) :=
  inferInstanceAs (Decidable (label.event ≠ .loses))

def waitingSystem : System HostProcess HostLabel :=
  hostSystem.restrict Waits

/-- What a step of a pipe process does to its root and to what is recorded of it. -/
inductive PipeMove (before after : HostProcess) (label : HostLabel) : Prop
  | exits (status : ExitStatus) (running : before.root = .running)
      (root : after.root = .exited status) (life : after.lifecycle = before.lifecycle)
      (quiet : label.isKill = false)
  | kills (intent : KillIntent) (running : before.root = .running)
      (unfinished : before.lifecycle.finished = false) (root : after.root = before.root)
      (life : after.lifecycle = before.lifecycle.noteKill intent)
      (killed : label.notice = .killed intent)
  | reaps (status : ExitStatus) (exited : before.root = .exited status)
      (root : after.root = .reaped status)
      (life : after.lifecycle = before.lifecycle.finishWait status.code? status.signal?)
      (quiet : label.isKill = false)
  | keeps (root : after.root = before.root) (life : after.lifecycle = before.lifecycle)
      (quiet : label.isKill = false)

namespace PipeKept

theorem running_of_isOver (kept : PipeKept host) (live : host.isOver = false) :
    host.root = .running ∧ host.lifecycle.finished = false := by
  have unfinished := HostProcess.finished_of_isOver live
  simp only [HostProcess.isOver, kept.piped, unfinished, Bool.false_or, HostProcess.exitedUnreaped]
    at live
  cases isRoot : host.root with
  | running => exact ⟨rfl, unfinished⟩
  | exited | reaped => simp [isRoot] at live

section

variable (kept : PipeKept before)
include kept

theorem timerMove (stepped : TimerStep before notice after) :
    PipeMove before after ⟨.timer, notice⟩ ∧ PipeStages after := by
  cases stepped with
  | late | marks => exact ⟨.keeps rfl rfl rfl, kept.piped, nofun, kept.observing, kept.recorded⟩
  | kills _ live =>
      obtain ⟨running, unfinished⟩ := kept.running_of_isOver live
      exact ⟨.kills .timeout running unfinished rfl rfl rfl, kept.piped, nofun, kept.observing,
        kept.recorded⟩
  | notes _ _ isPty =>
      rw [kept.piped] at isPty
      cases isPty
  | killsNoted killing => exact absurd killing kept.unkilled

theorem waiterMove (stepped : WaiterStep before notice after) :
    PipeMove before after ⟨.waiter, notice⟩ ∧ PipeStages after := by
  cases stepped with
  | finished _ _ isFinished =>
      have reaped : before.root.isReaped = true := kept.finished.symm.trans isFinished
      exact ⟨.keeps rfl rfl rfl, kept.piped, kept.unkilled, nofun, fun _ => reaped⟩
  | sees _ _ unfinished exited =>
      refine ⟨.keeps rfl rfl rfl, kept.piped, kept.unkilled, fun _ => ?_, by simp⟩
      rw [kept.finished] at unfinished
      cases isRoot : before.root with
      | running => simp [HostProcess.exitedUnreaped, isRoot] at exited
      | exited status => exact ⟨status, rfl⟩
      | reaped => simp [Root.isReaped, isRoot] at unfinished
  | waits => exact ⟨.keeps rfl rfl rfl, kept.toPipeStages⟩
  | reported _ isPty =>
      rw [kept.piped] at isPty
      cases isPty
  | unseen observing running =>
      obtain ⟨status, exited⟩ := kept.observing observing
      rw [running] at exited
      cases exited
  | @reaps status observing ended =>
      obtain ⟨_, exited⟩ := kept.observing observing
      rw [exited] at ended
      rcases ended with same | reaped
      · cases same
        exact ⟨.reaps status exited rfl rfl rfl, kept.piped, kept.unkilled, nofun, fun _ => rfl⟩
      · cases reaped
  | ends joining =>
      exact ⟨.keeps rfl rfl rfl, kept.piped, kept.unkilled, nofun, fun _ => kept.recorded (.inl joining)⟩

theorem move (stepped : waitingSystem.step before label after) :
    PipeMove before after label ∧ PipeStages after := by
  obtain ⟨event, notice⟩ := label
  obtain ⟨waits, stepped⟩ : event ≠ .loses ∧ before.step event = some (notice, after) := stepped
  cases event with
  | timer => exact kept.timerMove (.of_eq stepped)
  | waiter => exact kept.waiterMove (.of_eq stepped)
  | exits status =>
      simp only [HostProcess.step] at stepped
      split at stepped
      next running =>
        cases stepped
        refine ⟨.exits status running rfl rfl rfl, kept.piped, kept.unkilled, fun _ => ⟨status, rfl⟩,
          fun recorded => ?_⟩
        have reaped := kept.recorded recorded
        rw [running] at reaped
        cases reaped
      · cases stepped
  | terminates =>
      simp only [HostProcess.step, HostProcess.requestKill] at stepped
      split at stepped
      · cases stepped
        exact ⟨.keeps rfl rfl rfl, kept.toPipeStages⟩
      next live =>
        cases stepped
        obtain ⟨running, unfinished⟩ := kept.running_of_isOver (eq_false_of_ne_true live)
        exact ⟨.kills .terminated running unfinished rfl rfl rfl, kept.piped, kept.unkilled,
          kept.observing, kept.recorded⟩
  | appends | pumpEnds =>
      simp only [HostProcess.step, Option.ite_none_right_eq_some, Option.some.injEq] at stepped
      obtain ⟨_, same⟩ := stepped
      cases same
      exact ⟨.keeps rfl rfl rfl, kept.piped, kept.unkilled, kept.observing, kept.recorded⟩
  | reads =>
      cases stepped
      exact ⟨.keeps rfl rfl rfl, kept.toPipeStages⟩
  | marks | reaps | reports =>
      simp only [HostProcess.step, kept.piped] at stepped
      cases stepped
  | loses => exact absurd rfl waits

end

theorem spawned (processId : String) (cap : Nat) : PipeKept (.spawned processId .pipe cap) where
  piped := rfl
  unkilled := nofun
  observing := nofun
  recorded := by rintro (joining | isOver) <;> contradiction
  snapshot := rfl
  finished := rfl

theorem step (kept : PipeKept before) (stepped : waitingSystem.step before label after) :
    PipeKept after := by
  obtain ⟨move, stages⟩ := kept.move stepped
  suffices told : after.lifecycle.snapshot = after.root.snapshot after.lifecycle.killIntent ∧
      after.lifecycle.finished = after.root.isReaped from ⟨stages, told.1, told.2⟩
  have snapshot := kept.snapshot
  have finished := kept.finished
  cases move with
  | exits _ running root life =>
      rw [root, life, snapshot, finished, running]
      simp only [Root.snapshot, Root.isReaped, and_self]
  | kills _ running _ root life =>
      rw [root, life, Lifecycle.noteKill_snapshot, Lifecycle.noteKill_finished, snapshot, finished,
        running]
      simp only [Root.snapshot, Root.isReaped, and_self]
  | reaps _ exited root life =>
      rw [exited] at finished
      rw [root, life]
      simp [Lifecycle.finishWait, finished, Root.isReaped, Root.snapshot]
  | keeps root life =>
      rw [root, life]
      exact ⟨snapshot, finished⟩

variable (kept : PipeKept host)
include kept

theorem run (run : waitingSystem.Run host later final) : PipeKept final :=
  run.keeps PipeKept (fun stepped kept => kept.step stepped) kept

/-- Once the root is reaped nothing is recorded anew and no kill is sent. -/
theorem reaped_run (reaped : host.root = .reaped status) (run : waitingSystem.Run host later final) :
    final.root = host.root ∧ final.lifecycle = host.lifecycle ∧
      ∀ label ∈ later, label.isKill = false := by
  induction run with
  | refl => exact ⟨rfl, rfl, by simp⟩
  | @cons first middle last label labels head tail ih =>
      have moved : middle.root = first.root ∧ middle.lifecycle = first.lifecycle ∧
          label.isKill = false := by
        cases (kept.move head).1 with
        | exits _ running | kills _ running =>
            rw [reaped] at running
            cases running
        | reaps _ exited =>
            rw [reaped] at exited
            cases exited
        | keeps root life quiet => exact ⟨root, life, quiet⟩
      obtain ⟨root, life, quiet⟩ := moved
      obtain ⟨lastRoot, lastLife, quietLater⟩ := ih (kept.step head) (root.trans reaped)
      refine ⟨lastRoot.trans root, lastLife.trans life, fun other isOther => ?_⟩
      rcases List.mem_cons.mp isOther with rfl | isLater
      · exact quiet
      · exact quietLater other isLater

theorem own_run (unkilled : host.lifecycle.killIntent = none)
    (ended : host.root = .exited status ∨ host.root = .reaped status)
    (run : waitingSystem.Run host later final) :
    final.lifecycle.killIntent = none ∧ (final.root = .exited status ∨ final.root = .reaped status) := by
  induction run with
  | refl => exact ⟨unkilled, ended⟩
  | @cons first middle last label labels head tail ih =>
      refine ih (kept.step head) ?_ ?_
      · cases (kept.move head).1 with
        | exits _ _ _ life | keeps _ life => rw [life, unkilled]
        | kills _ running =>
            rw [running] at ended
            rcases ended with exited | reaped
            · cases exited
            · cases reaped
        | reaps _ _ _ life =>
            rw [life]
            unfold Lifecycle.finishWait
            split <;> exact unkilled
      · cases (kept.move head).1 with
        | exits _ running =>
            rw [running] at ended
            rcases ended with exited | reaped
            · cases exited
            · cases reaped
        | kills _ _ _ root | keeps root => rwa [root]
        | reaps _ exited root =>
            rw [exited] at ended
            rcases ended with same | reaped
            · cases same
              exact .inr root
            · cases reaped

theorem snapshot_of_reaped (reaped : host.root = .reaped status) : host.lifecycle.snapshot =
      Lifecycle.ending host.lifecycle.killIntent status.code? status.signal? := by
  rw [kept.snapshot, reaped]
  rfl

theorem ended_iff : host.lifecycle.snapshot.running = false ↔ host.root.isReaped = true := by
  cases isRoot : host.root with
  | running | exited => simp [kept.snapshot, isRoot, Root.snapshot, Root.isReaped]
  | reaped => simp [kept.snapshot_of_reaped isRoot, Lifecycle.ending_running, Root.isReaped]

/-- The reaper's next steps record an end that the root came to. -/
theorem exists_end (exited : host.root = .exited status) :
    ∃ later final, (∀ label ∈ later, label.event = .waiter) ∧ waitingSystem.Run host later final ∧
      final.lifecycle.snapshot.running = false := by
  have unfinished : host.lifecycle.finished = false := by simp [kept.finished, exited, Root.isReaped]
  have records (process : HostProcess) (kept : PipeKept process)
      (observing : process.waiter = .observing) (exited : process.root = .exited status) :
      ∃ final, waitingSystem.step process ⟨.waiter, .reaped⟩ final ∧
        final.lifecycle.snapshot.running = false := by
    have stepped : waitingSystem.step process ⟨.waiter, .reaped⟩ { process with
        root := .reaped status
        lifecycle := process.lifecycle.finishWait status.code? status.signal?
        waiter := .joining } := by
      refine ⟨fun lost => by contradiction, ?_⟩
      simp [hostSystem, HostProcess.step, HostProcess.stepWaiter, observing, exited]
    exact ⟨_, stepped, (kept.step stepped).ended_iff.mpr rfl⟩
  cases stage : host.waiter with
  | watching =>
      have sees : waitingSystem.step host ⟨.waiter, .quiet⟩ { host with waiter := .observing } := by
        refine ⟨fun lost => by contradiction, ?_⟩
        simp [hostSystem, HostProcess.step, HostProcess.stepWaiter, stage, kept.piped, unfinished,
          HostProcess.exitedUnreaped, exited]
      obtain ⟨final, stepped, ended⟩ := records _ (kept.step sees) rfl exited
      exact ⟨[_, _], final, by simp, .cons sees (.cons stepped (.refl final)), ended⟩
  | observing =>
      obtain ⟨final, stepped, ended⟩ := records host kept stage exited
      exact ⟨[_], final, by simp, .cons stepped (.refl final), ended⟩
  | joining =>
      have reaped := kept.recorded (.inl stage)
      rw [exited] at reaped
      cases reaped
  | finished =>
      have reaped := kept.recorded (.inr stage)
      rw [exited] at reaped
      cases reaped

end PipeKept

theorem ExitStatus.ending_own (status : ExitStatus) :
    Lifecycle.ending none status.code? status.signal? = status.own := by
  cases status <;> rfl

theorem KillIntent.termination_injective {first second : KillIntent}
    (same : first.termination = second.termination) : first = second := by
  cases first <;> cases second <;> first | rfl | cases same

theorem Lifecycle.ending_termination_none (code signal : Option Int) :
    (Lifecycle.ending none code signal).termination ≠ some intent.termination := by
  simp only [Lifecycle.ending]
  split <;> cases intent <;> simp [KillIntent.termination]

/-- The first kill of a run was sent for `intent`, while the root had not exited. -/
def KilledFirst (start : HostProcess) (trace : List HostLabel) (intent : KillIntent) : Prop :=
  ∃ earlier label later before, trace = earlier ++ label :: later ∧
    (∀ other ∈ earlier, other.isKill = false) ∧ waitingSystem.Run start earlier before ∧
    before.root = .running ∧ label.notice = .killed intent

/-- What a run of a pipe process tells about its kills. -/
structure PipeRun (start : HostProcess) (trace : List HostLabel) (host : HostProcess) : Prop where
  run : waitingSystem.Run start trace host
  kept : PipeKept host
  unkilled : host.lifecycle.killIntent = none ↔ ∀ label ∈ trace, label.isKill = false
  killed : ∀ intent, host.lifecycle.killIntent = some intent → KilledFirst start trace intent

namespace PipeRun

theorem extend (killed : KilledFirst start trace intent) (label : HostLabel) :
    KilledFirst start (trace ++ [label]) intent := by
  obtain ⟨earlier, kill, later, before, rfl, unkilled, run, running, isKill⟩ := killed
  exact ⟨earlier, kill, later ++ [label], before, by simp, unkilled, run, running, isKill⟩

section

variable (facts : PipeRun start trace before)
include facts

variable (stepped : waitingSystem.step before label after)
include stepped

theorem quiet_step (intent : after.lifecycle.killIntent = before.lifecycle.killIntent)
    (quiet : label.isKill = false) : PipeRun start (trace ++ [label]) after where
  run := facts.run.snoc stepped
  kept := facts.kept.step stepped
  unkilled := by
    rw [intent, facts.unkilled]
    simp [or_imp, forall_and, quiet]
  killed first noted := extend (facts.killed first (intent.symm.trans noted)) label

theorem kill_step (running : before.root = .running)
    (life : after.lifecycle = before.lifecycle.noteKill intent)
    (killed : label.notice = .killed intent) : PipeRun start (trace ++ [label]) after where
  run := facts.run.snoc stepped
  kept := facts.kept.step stepped
  unkilled := by
    have isKill : label.isKill = true := by simp [HostLabel.isKill, killed]
    rw [life, Lifecycle.noteKill_killIntent]
    simp [or_imp, forall_and, isKill]
  killed first noted := by
    rw [life, Lifecycle.noteKill_killIntent] at noted
    cases known : before.lifecycle.killIntent with
    | none =>
        rw [known] at noted
        cases noted
        exact ⟨trace, label, [], before, rfl, facts.unkilled.mp known, facts.run, running, killed⟩
    | some earlier =>
        rw [known] at noted
        cases noted
        exact extend (facts.killed earlier known) label

theorem step : PipeRun start (trace ++ [label]) after := by
  cases (facts.kept.move stepped).1 with
  | exits _ _ _ life quiet | keeps _ life quiet => exact facts.quiet_step stepped (by rw [life]) quiet
  | kills _ running _ _ life killed => exact facts.kill_step stepped running life killed
  | reaps _ _ _ life quiet =>
      refine facts.quiet_step stepped ?_ quiet
      rw [life]
      unfold Lifecycle.finishWait
      split <;> rfl

end

theorem of_run {processId : String} {cap : Nat}
    (run : waitingSystem.Run (.spawned processId .pipe cap) trace host) :
    PipeRun (.spawned processId .pipe cap) trace host := by
  have atStart : PipeRun (.spawned processId .pipe cap) ([] : List HostLabel)
      (.spawned processId .pipe cap) :=
    ⟨.refl _, .spawned processId cap, by simp [HostProcess.spawned], nofun⟩
  exact run.records (PipeRun (.spawned processId .pipe cap)) (fun facts stepped => facts.step stepped)
    atStart

/-- A termination that a kill is told for had that kill as its first. -/
theorem killedFirst (facts : PipeRun start trace host)
    (told : host.lifecycle.snapshot.termination = some intent.termination) :
    KilledFirst start trace intent := by
  cases isRoot : host.root with
  | running | exited => simp [facts.kept.snapshot, isRoot, Root.snapshot] at told
  | reaped status =>
      rw [facts.kept.snapshot_of_reaped isRoot] at told
      cases noted : host.lifecycle.killIntent with
      | none =>
          rw [noted] at told
          exact absurd told (Lifecycle.ending_termination_none status.code? status.signal?)
      | some first =>
          rw [noted, Lifecycle.ending_termination, Option.some.injEq] at told
          exact KillIntent.termination_injective told ▸ facts.killed first noted

end PipeRun

/-- A pipe process leaves `running` when its root is reaped, and only then: an end is recorded by the
reaper's own steps, once, as the first kill's if that was sent before the root exited and as the root's
own if the root exited first; a reaped root is never sent a kill. -/
theorem pipe_process_ends_once {processId : String} {cap : Nat}
    (run : waitingSystem.Run (.spawned processId .pipe cap) trace host) :
    (host.lifecycle.snapshot.running = false ↔ host.root.isReaped = true) ∧
      (∀ status, host.root = .exited status → ∃ later final,
        (∀ label ∈ later, label.event = .waiter) ∧ waitingSystem.Run host later final ∧
          final.lifecycle.snapshot.running = false) ∧
      (∀ intent, host.lifecycle.snapshot.termination = some intent.termination →
        KilledFirst (.spawned processId .pipe cap) trace intent) ∧
      ∀ later final, waitingSystem.Run host later final → (host.lifecycle.snapshot.running = false →
          final.lifecycle.snapshot = host.lifecycle.snapshot) ∧
        (∀ status, host.root = .exited status → (∀ label ∈ trace, label.isKill = false) →
          final.lifecycle.snapshot.running = false → final.lifecycle.snapshot = status.own) ∧
        (host.root.isReaped = true → ∀ label ∈ later, label.isKill = false) := by
  have facts := PipeRun.of_run run
  have reaped (isReaped : host.root.isReaped = true) : ∃ status, host.root = .reaped status := by
    cases isRoot : host.root with
    | reaped status => exact ⟨status, rfl⟩
    | running | exited => simp [isRoot, Root.isReaped] at isReaped
  refine ⟨facts.kept.ended_iff, fun status exited => facts.kept.exists_end exited,
    fun intent told => facts.killedFirst told, fun later final further => ⟨?_, ?_, ?_⟩⟩
  · intro ended
    obtain ⟨status, isRoot⟩ := reaped (facts.kept.ended_iff.mp ended)
    rw [(facts.kept.reaped_run isRoot further).2.1]
  · intro status exited quiet ended
    have final_kept := facts.kept.run further
    obtain ⟨unkilled, isRoot⟩ := facts.kept.own_run (facts.unkilled.mpr quiet) (.inl exited) further
    rcases isRoot with isRoot | isRoot
    · have isReaped := final_kept.ended_iff.mp ended
      rw [isRoot] at isReaped
      cases isReaped
    · rw [final_kept.snapshot_of_reaped isRoot, unkilled, status.ending_own]
  · intro isReaped
    obtain ⟨_, isRoot⟩ := reaped isReaped
    exact (facts.kept.reaped_run isRoot further).2.2

/-- A terminated process: its one kill was sent before it exited. -/
theorem terminated_process_was_killed :
    ∃ trace host, waitingSystem.Run (.spawned "p" .pipe 64) trace host ∧
      host.lifecycle.snapshot.termination = some .terminated ∧
      KilledFirst (.spawned "p" .pipe 64) trace .terminated := by
  obtain ⟨trace, host, run, ended⟩ := HostProcess.exists_admitted_run Waits (.spawned "p" .pipe 64)
    [.waiter, .terminates, .exits (.signal 9), .terminates, .timer, .waiter, .waiter]
    (fun _ host => host.lifecycle.snapshot.termination = some .terminated) (by decide +kernel)
  exact ⟨trace, host, run, ended, (pipe_process_ends_once run).2.2.1 .terminated ended⟩

end CodeSpace.Runner
