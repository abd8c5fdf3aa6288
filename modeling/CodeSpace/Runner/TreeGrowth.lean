import CodeSpace.Data.Count
import CodeSpace.Runner.SandboxTree

namespace CodeSpace.Runner

open Data

/-! What the processes of a tree keep while they start others, exit, stop and are sent signals. -/

variable {runner root number other level pid reaper starter : Nat} {processes later : List TreeProcess}
  {process child : TreeProcess} {tree after : SandboxTree}

section

variable (found : processes[number]? = some process)
include found

theorem pidOf_of_getElem? : pidOf processes number = some process.pid := by
  rw [pidOf, found, Option.map_some]

theorem levelOf_of_getElem? : levelOf processes number = process.level := by
  rw [levelOf, found, Option.bind_some]

theorem isAlive_of_getElem? : isAlive processes number = process.alive := by
  rw [isAlive, found, Option.any_some]

end

theorem exists_of_pidOf (isPid : pidOf processes number = some pid) :
    ∃ process, processes[number]? = some process ∧ process.pid = pid :=
  Option.map_eq_some_iff.mp isPid

theorem exists_of_levelOf (isLevel : levelOf processes number = some level) :
    ∃ process, processes[number]? = some process ∧ process.level = some level :=
  Option.bind_eq_some_iff.mp isLevel

theorem exists_of_isAlive (alive : isAlive processes number = true) :
    ∃ process, processes[number]? = some process ∧ process.alive = true :=
  (Option.any_eq_true _ _).mp alive

theorem Grown.exists_starter (grown : Grown runner root processes)
    (isLevel : levelOf processes number = some (level + 1)) :
    ∃ starter, starterOf processes number = some starter ∧ levelOf processes starter = some level := by
  obtain ⟨starter, isStarter⟩ := grown.starters number level isLevel
  obtain ⟨_, isAbove, same⟩ := Option.map_eq_some_iff.mp
    ((grown.started number starter isStarter).symm.trans isLevel)
  exact ⟨starter, isStarter, Nat.succ.inj same ▸ isAbove⟩

/-- What stays of each process, and where a new process of the tree comes from. -/
structure Aged (processes later : List TreeProcess) : Prop where
  pid : ∀ number pid, pidOf processes number = some pid → pidOf later number = some pid
  level : ∀ number level, levelOf processes number = some level → levelOf later number = some level
  starter : ∀ number starter, starterOf processes number = some starter →
    starterOf later number = some starter
  stopped : ∀ number, isStopped processes number = true → isStopped later number = true
  fresh : ∀ number level, levelOf later number = some level → levelOf processes number = some level ∨
    ∃ starter before, level = before + 1 ∧ levelOf processes starter = some before ∧
      isStopped processes starter = false

structure Lived (runner root : Nat) (processes later : List TreeProcess) : Prop where
  aged : Aged processes later
  grown : Grown runner root later
  unkilled : Unkilled runner processes → Unkilled runner later
  spared : ∀ number, isKilled processes number = false → isKilled later number = false

/-- Each process keeps its ID, its place in the tree and its stop. -/
structure SameTree (processes later : List TreeProcess) : Prop where
  pid : ∀ number, pidOf later number = pidOf processes number
  level : ∀ number, levelOf later number = levelOf processes number
  starter : ∀ number, starterOf later number = starterOf processes number
  stopped : ∀ number, isStopped processes number = true → isStopped later number = true
  length : later.length = processes.length

theorem SameTree.aged (same : SameTree processes later) : Aged processes later where
  pid number _ isPid := (same.pid number).trans isPid
  level number _ isLevel := (same.level number).trans isLevel
  starter number _ isStarter := (same.starter number).trans isStarter
  stopped := same.stopped
  fresh number _ isLevel := .inl ((same.level number).symm.trans isLevel)

theorem SameTree.grown (same : SameTree processes later) (earlier : Grown runner root processes)
    (fewer : ∀ number, isAlive later number = true → isAlive processes number = true)
    (living : ∀ number level, levelOf processes number = some level → isKilled later number = false →
      isAlive later number = true) : Grown runner root later := by
  refine ⟨fun number other alive otherAlive => ?_, ?_, ?_, ?_, ?_, ?_, ?_, ?_, ?_⟩
  all_goals simp only [same.pid, same.level, same.starter, same.length]
  · exact earlier.distinct number other (fewer number alive) (fewer other otherAlive)
  · exact earlier.valid
  · exact earlier.root
  · exact earlier.rootOnly
  · exact earlier.known
  · exact earlier.started
  · exact earlier.starters
  · exact living
  · exact earlier.shallow

section

variable (grown : Grown runner root processes)
include grown

theorem halt_keeps (number : Nat) :
    Lived runner root processes (processes.modify number TreeProcess.halt) := by
  have same : SameTree processes (processes.modify number TreeProcess.halt) := by
    constructor <;> grind [TreeProcess.halt]
  have alive position : isAlive (processes.modify number TreeProcess.halt) position =
      isAlive processes position := by grind [TreeProcess.halt]
  have killed position : isKilled (processes.modify number TreeProcess.halt) position =
      isKilled processes position := by grind [TreeProcess.halt]
  have parent position : parentAt (processes.modify number TreeProcess.halt) position =
      parentAt processes position := by grind [TreeProcess.halt]
  refine ⟨same.aged, same.grown grown (by simp [alive]) (by simpa only [alive, killed] using grown.living),
    fun unkilled => ?_, by simp [killed]⟩
  constructor <;> simp only [same.pid, same.level, same.starter, alive, killed, parent]
  exacts [unkilled.unkilled, unkilled.parents, unkilled.rootParent, unkilled.outside, unkilled.parented]

theorem kill_keeps (number : Nat) : Aged processes (processes.modify number TreeProcess.condemn) ∧
      Grown runner root (processes.modify number TreeProcess.condemn) ∧
      ∀ other, other ≠ number →
        isKilled (processes.modify number TreeProcess.condemn) other = isKilled processes other := by
  have same : SameTree processes (processes.modify number TreeProcess.condemn) := by
    constructor <;> grind [TreeProcess.condemn]
  have alive position : isAlive (processes.modify number TreeProcess.condemn) position =
      isAlive processes position := by grind [TreeProcess.condemn]
  refine ⟨same.aged, same.grown grown (by simp [alive]) fun position level isLevel spared => ?_,
    by grind [TreeProcess.condemn]⟩
  rw [alive]
  exact grown.living position level isLevel (by grind [TreeProcess.condemn])

theorem exit_keeps (found : processes[number]? = some process)
    (alive : process.alive = true) (free : process.level = none ∨ process.killed = true) (reaper : Nat)
    (adopts : ¬ (reaper ≠ runner ∧ 0 < reaper ∧ reaper < 2 ^ 31) ∨ ∃ other, other ≠ number ∧
      isAlive processes other = true ∧ pidOf processes other = some reaper ∧
      (process.level = none → levelOf processes other = none)) :
    Lived runner root processes (processes.mapIdx (SandboxTree.departed number process.pid reaper)) := by
  have same : SameTree processes (processes.mapIdx (SandboxTree.departed number process.pid reaper)) := by
    constructor <;> grind [SandboxTree.departed]
  have aliveLater position :
      isAlive (processes.mapIdx (SandboxTree.departed number process.pid reaper)) position =
      (decide (position ≠ number) && isAlive processes position) := by grind [SandboxTree.departed]
  have killedLater position :
      isKilled (processes.mapIdx (SandboxTree.departed number process.pid reaper)) position =
      isKilled processes position := by grind [SandboxTree.departed]
  have parentLater position (elsewhere : position ≠ number) :
      parentAt (processes.mapIdx (SandboxTree.departed number process.pid reaper)) position =
        if parentAt processes position = some process.pid then some reaper
        else parentAt processes position := by grind [SandboxTree.departed]
  have isAliveNow : isAlive processes number = true := (isAlive_of_getElem? found).trans alive
  have isPid := pidOf_of_getElem? found
  have isLevelHere := levelOf_of_getElem? found
  have wasKilled : isKilled processes number = process.killed := by grind
  generalize processes.mapIdx (SandboxTree.departed number process.pid reaper) = later at *
  refine ⟨same.aged, same.grown grown (by simp [aliveLater]) ?_, fun unkilled => ?_, by simp [killedLater]⟩
  · intro position level isLevel spared
    rw [killedLater] at spared
    rw [aliveLater, grown.living position level isLevel spared]
    grind
  have outside : levelOf processes number = none := by
    have unkilled := unkilled.unkilled number
    grind
  have parentStays (position level : Nat) (isLevel : levelOf processes position = some level) :
      parentAt later position = parentAt processes position := by
    rw [parentLater position (by grind), if_neg]
    cases level with
    | zero =>
        rw [unkilled.rootParent position isLevel]
        exact fun same => (grown.valid number _ isPid).1 (Option.some.inj same).symm
    | succ level =>
        obtain ⟨starter, isStarter, isUpper⟩ := grown.exists_starter isLevel
        rw [unkilled.parents position starter level isStarter isUpper, ← isPid]
        intro samePid
        have starterAlive := grown.living starter level isUpper (unkilled.unkilled starter)
        rw [grown.distinct starter number starterAlive isAliveNow samePid, outside] at isUpper
        cases isUpper
  constructor <;> simp only [same.pid, same.level, same.starter, killedLater]
  · exact unkilled.unkilled
  · intro position starter level isStarter isLevel
    have below := grown.started position starter isStarter
    rw [isLevel, Option.map_some] at below
    rw [parentStays position _ below, unkilled.parents position starter level isStarter isLevel]
  · intro position atTop
    rw [parentStays position 0 atTop, unkilled.rootParent position atTop]
  · intro position member level aliveThen isOutside isLevel
    rw [aliveLater, Bool.and_eq_true, decide_eq_true_eq] at aliveThen
    rw [parentLater position aliveThen.1]
    split
    · intro samePid
      rcases adopts with invalid | ⟨adopter, _, adopterAlive, isReaper, noMember⟩
      · exact invalid (grown.valid member reaper samePid.symm)
      · have memberAlive := grown.living member level isLevel (unkilled.unkilled member)
        have isAdopter := grown.distinct member adopter memberAlive adopterAlive
          (samePid.symm.trans isReaper.symm)
        rw [isAdopter, noMember (isLevelHere ▸ outside)] at isLevel
        cases isLevel
    · exact unkilled.outside position member level aliveThen.2 isOutside isLevel
  · intro position parent aliveThen isParent notRunner positive small
    rw [aliveLater, Bool.and_eq_true, decide_eq_true_eq] at aliveThen
    rw [parentLater position aliveThen.1] at isParent
    simp only [aliveLater]
    have parented := unkilled.parented position parent aliveThen.2
    split at isParent
    · obtain rfl := Option.some.inj isParent
      obtain ⟨adopter, elsewhere, adopterAlive, isReaper, _⟩ :=
        adopts.resolve_left fun invalid => invalid ⟨notRunner, positive, small⟩
      exact ⟨adopter, by simp [elsewhere, adopterAlive], isReaper⟩
    · obtain ⟨other, _, isOther⟩ := parented isParent notRunner positive small
      refine ⟨other, ?_, isOther⟩
      grind

end

section Fork

variable (child)

theorem pidOf_concat : pidOf (processes ++ [child]) number =
    if number = processes.length then some child.pid else pidOf processes number := by
  rw [pidOf, getElem?_concat]
  split <;> rfl

theorem parentAt_concat : parentAt (processes ++ [child]) number =
    if number = processes.length then some child.parent else parentAt processes number := by
  rw [parentAt, getElem?_concat]
  split <;> rfl

theorem starterOf_concat : starterOf (processes ++ [child]) number =
    if number = processes.length then child.starter else starterOf processes number := by
  rw [starterOf, getElem?_concat]
  split <;> rfl

theorem levelOf_concat : levelOf (processes ++ [child]) number =
    if number = processes.length then child.level else levelOf processes number := by
  rw [levelOf, getElem?_concat]
  split <;> rfl

theorem isAlive_concat : isAlive (processes ++ [child]) number =
    if number = processes.length then child.alive else isAlive processes number := by
  rw [isAlive, getElem?_concat]
  split <;> rfl

theorem isStopped_concat : isStopped (processes ++ [child]) number =
    if number = processes.length then child.stopped else isStopped processes number := by
  rw [isStopped, getElem?_concat]
  split <;> rfl

theorem isKilled_concat : isKilled (processes ++ [child]) number =
    if number = processes.length then child.killed else isKilled processes number := by
  rw [isKilled, getElem?_concat]
  split <;> rfl

theorem ne_length_of_pidOf (isPid : pidOf processes number = some pid) : number ≠ processes.length := by
  obtain ⟨_, found, _⟩ := exists_of_pidOf isPid
  exact Nat.ne_of_lt (List.getElem?_eq_some_iff.mp found).1

theorem ne_length_of_levelOf (isLevel : levelOf processes number = some level) :
    number ≠ processes.length := by
  obtain ⟨_, found, _⟩ := exists_of_levelOf isLevel
  exact Nat.ne_of_lt (List.getElem?_eq_some_iff.mp found).1

theorem ne_length_of_starterOf (isStarter : starterOf processes number = some starter) :
    number ≠ processes.length := by
  obtain ⟨_, found, _⟩ := Option.bind_eq_some_iff.mp isStarter
  exact Nat.ne_of_lt (List.getElem?_eq_some_iff.mp found).1

theorem ne_length_of_isStopped (stopped : isStopped processes number = true) :
    number ≠ processes.length := by
  obtain ⟨_, found, _⟩ := (Option.any_eq_true _ _).mp stopped
  exact Nat.ne_of_lt (List.getElem?_eq_some_iff.mp found).1

end Fork

theorem fork_keeps (grown : Grown runner root processes) (found : processes[starter]? = some process)
    (alive : process.alive = true) (running : process.stopped = false)
    (isValid : pid ≠ runner ∧ 0 < pid ∧ pid < 2 ^ 31)
    (unused : ∀ number, isAlive processes number = true → pidOf processes number ≠ some pid)
    (shallow : ∀ level, process.level = some level → level < maxDepth) :
    Lived runner root processes (processes ++ [process.child starter pid]) := by
  have starterPid := pidOf_of_getElem? found
  have starterLevel := levelOf_of_getElem? found
  have starterAlive : isAlive processes starter = true := (isAlive_of_getElem? found).trans alive
  have starterRuns : isStopped processes starter = false := by
    rw [isStopped, found, Option.any_some, running]
  have inside : starter < processes.length := (List.getElem?_eq_some_iff.mp found).1
  have known := grown.known
  have childLevel : (process.child starter pid).level = process.level.map (· + 1) := rfl
  have childStarter : (process.child starter pid).starter = some starter := rfl
  have childPid : (process.child starter pid).pid = pid := rfl
  have childParent : (process.child starter pid).parent = process.pid := rfl
  refine ⟨⟨?_, ?_, ?_, ?_, ?_⟩, ⟨?_, ?_, ?_, ?_, ?_, ?_, ?_, ?_, ?_⟩, fun unkilled => ⟨?_, ?_, ?_, ?_, ?_⟩,
    ?_⟩
  · grind [pidOf_concat, ne_length_of_pidOf]
  · grind [levelOf_concat, ne_length_of_levelOf]
  · grind [starterOf_concat, ne_length_of_starterOf]
  · grind [isStopped_concat, ne_length_of_isStopped]
  · grind [levelOf_concat, Option.map_eq_some_iff]
  · grind [isAlive_concat, pidOf_concat, grown.distinct]
  · intro number held isPid
    rw [pidOf_concat] at isPid
    split at isPid
    · exact Option.some.inj isPid ▸ isValid
    · exact grown.valid number held isPid
  · obtain ⟨number, _⟩ := grown.root
    exact ⟨number, by grind [pidOf_concat, ne_length_of_pidOf], by grind
      [levelOf_concat, ne_length_of_levelOf]⟩
  · grind [levelOf_concat, grown.rootOnly, Option.map_eq_some_iff]
  · grind [starterOf_concat]
  · grind [starterOf_concat, levelOf_concat, grown.started]
  · grind [starterOf_concat, levelOf_concat, grown.starters]
  · grind [isAlive_concat, levelOf_concat, isKilled_concat, grown.living, TreeProcess.child]
  · intro number level isLevel
    rw [levelOf_concat] at isLevel
    split at isLevel
    · obtain ⟨above, isAbove, rfl⟩ := Option.map_eq_some_iff.mp isLevel
      exact shallow above isAbove
    · exact grown.shallow number level isLevel
  · grind [isKilled_concat, unkilled.unkilled, TreeProcess.child]
  · grind [starterOf_concat, levelOf_concat, parentAt_concat, pidOf_concat, unkilled.parents]
  · grind [levelOf_concat, parentAt_concat, unkilled.rootParent, Option.map_eq_some_iff]
  · have living number level isLevel := grown.living number level isLevel (unkilled.unkilled number)
    have parented := unkilled.parented
    grind [isAlive_concat, levelOf_concat, parentAt_concat, pidOf_concat, grown.distinct, unkilled.outside]
  · intro number parent isAliveNow isParent notRunner positive small
    obtain ⟨other, _, isPid⟩ : ∃ other, isAlive processes other = true ∧
        pidOf processes other = some parent := by
      grind [isAlive_concat, parentAt_concat, unkilled.parented]
    have isOld := ne_length_of_pidOf isPid
    exact ⟨other, by grind [isAlive_concat], by grind [pidOf_concat]⟩
  · grind [isKilled_concat, TreeProcess.child]

theorem holder_some (held : tree.holder pid = some number) :
    isAlive tree.processes number = true ∧ pidOf tree.processes number = some pid := by
  obtain ⟨inside, matching, _⟩ := List.findIdx?_eq_some_iff_getElem.mp held
  rw [Bool.and_eq_true, decide_eq_true_eq] at matching
  have found : tree.processes[number]? = some tree.processes[number] := List.getElem?_eq_getElem inside
  exact ⟨(isAlive_of_getElem? found).trans matching.1, (pidOf_of_getElem? found).trans
    (congrArg some matching.2)⟩

theorem not_pid_of_holder_none (free : tree.holder pid = none)
    (alive : isAlive tree.processes number = true) : pidOf tree.processes number ≠ some pid := by
  intro isPid
  obtain ⟨process, found, rfl⟩ := exists_of_pidOf isPid
  have absent := List.findIdx?_eq_none_iff.mp free process (List.mem_of_getElem? found)
  rw [← isAlive_of_getElem? found, alive] at absent
  simp at absent

theorem holder_eq (grown : Grown runner root tree.processes) (alive : isAlive tree.processes number = true)
    (isPid : pidOf tree.processes number = some pid) : tree.holder pid = some number := by
  cases held : tree.holder pid with
  | none => exact absurd isPid (not_pid_of_holder_none held alive)
  | some other =>
      obtain ⟨otherAlive, isPidToo⟩ := holder_some held
      rw [grown.distinct other number otherAlive alive (isPidToo.trans isPid.symm)]

theorem parentOf_some {parent : Nat} (isParent : tree.parentOf pid = some parent) :
    ∃ number, isAlive tree.processes number = true ∧ pidOf tree.processes number = some pid ∧
      parentAt tree.processes number = some parent := by
  obtain ⟨_, found, rfl⟩ := Option.map_eq_some_iff.mp isParent
  obtain ⟨number, atNumber⟩ := List.mem_iff_getElem?.mp (List.mem_of_find?_eq_some found)
  have matching := List.find?_some found
  rw [Bool.and_eq_true, decide_eq_true_eq] at matching
  refine ⟨number, (isAlive_of_getElem? atNumber).trans matching.1, ?_, ?_⟩
  · rw [pidOf_of_getElem? atNumber, matching.2]
  · rw [parentAt, atNumber, Option.map_some]

theorem parentOf_eq (grown : Grown runner root tree.processes) (alive : isAlive tree.processes number = true)
    (isPid : pidOf tree.processes number = some pid) :
    tree.parentOf pid = parentAt tree.processes number := by
  cases isParent : tree.parentOf pid with
  | none =>
      obtain ⟨process, found, rfl⟩ := exists_of_pidOf isPid
      have absent := List.find?_eq_none.mp (Option.map_eq_none_iff.mp isParent) process
        (List.mem_of_getElem? found)
      rw [← isAlive_of_getElem? found, alive] at absent
      simp at absent
  | some =>
      obtain ⟨other, otherAlive, isPidToo, isParent⟩ := parentOf_some isParent
      rw [← grown.distinct other number otherAlive alive (isPidToo.trans isPid.symm), isParent]

theorem isValid_iff : tree.isValid pid = true ↔ pid ≠ tree.runner ∧ 0 < pid ∧ pid < 2 ^ 31 := by
  simp only [SandboxTree.isValid, Bool.and_eq_true, decide_eq_true_eq, and_assoc]

section Own

variable (grown : Grown tree.runner tree.root tree.processes)
include grown

theorem forks_lives (stepped : tree.fork starter pid = some after)
    (assumed : Assumed tree (.forks starter pid)) :
    ∃ later, after = { tree with processes := later } ∧
      Lived tree.runner tree.root tree.processes later := by
  unfold SandboxTree.fork at stepped
  split at stepped
  next found =>
    split at stepped
    next able =>
      simp only [Bool.and_eq_true, Bool.not_eq_true', Option.isNone_iff_eq_none] at able
      obtain ⟨⟨⟨alive, running⟩, isValid⟩, free⟩ := able
      cases stepped
      refine ⟨_, rfl, fork_keeps grown found alive running (isValid_iff.mp isValid)
        (fun _ => not_pid_of_holder_none free) fun level isLevel => ?_⟩
      simpa [Assumed, found, isLevel] using assumed
    · cases stepped
  · cases stepped

theorem exits_lives (stepped : tree.exit number reaper = some after)
    (assumed : Assumed tree (.exits number reaper)) :
    ∃ later, after = { tree with processes := later } ∧
      Lived tree.runner tree.root tree.processes later := by
  unfold SandboxTree.exit at stepped
  split at stepped
  next found =>
    split at stepped
    next able =>
      rw [Bool.and_eq_true] at able
      obtain ⟨alive, adopts⟩ := able
      cases stepped
      refine ⟨_, rfl, exit_keeps grown found alive ?_ reaper ?_⟩
      · simpa [Assumed, found] using assumed
      · rw [SandboxTree.adopts, Bool.or_eq_true, Bool.not_eq_true', ← Bool.not_eq_true, isValid_iff,
          Option.any_eq_true] at adopts
        refine adopts.imp_right ?_
        rintro ⟨other, held, isOther⟩
        rw [Bool.and_eq_true, decide_eq_true_eq] at isOther
        obtain ⟨otherAlive, isPid⟩ := holder_some held
        refine ⟨other, isOther.1, otherAlive, isPid, fun isOutside => ?_⟩
        obtain ⟨_, isAdopter, _⟩ := exists_of_isAlive otherAlive
        simpa [isOutside, isAdopter, levelOf_of_getElem? isAdopter] using isOther.2
    · cases stepped
  · cases stepped

end Own

end CodeSpace.Runner
