import Mathlib.Data.List.Nodup
import Mathlib.Logic.Relation
import CodeSpace.Runner.TreeGrowth

namespace CodeSpace.Runner

/-! What `kill_descendants` has done when it returns. A stopped process starts no other, so a level of
the tree is complete once the level above it is stopped, and a reading of `/proc` that begins then finds
all of it. -/

variable {runner root number other level round pid : Nat} {processes later : List TreeProcess}
  {process : TreeProcess} {tree after start : SandboxTree} {event : TreeEvent} {trace : List TreeEvent}
  {found members pids due listed names left stopped halted pending todo gone : List Nat} {top first : Nat}
  {entries : List (Nat × Nat)} {sent : List (Nat × WalkSignal)}

/-- The first levels are stopped. -/
def Frozen (processes : List TreeProcess) (levels : Nat) : Prop :=
  ∀ number level, levelOf processes number = some level → level < levels →
    isStopped processes number = true

/-- The walk knows the levels down to `round`, upper ones first. -/
structure Surveyed (processes : List TreeProcess) (round : Nat) (found members : List Nat) : Prop where
  named : found.map some = members.map (pidOf processes)
  nodup : members.Nodup
  complete : ∀ number, number ∈ members ↔ ∃ level, levelOf processes number = some level ∧ level ≤ round
  ordered : members.Pairwise fun number other => ∀ level below, levelOf processes number = some level →
    levelOf processes other = some below → level ≤ below

/-- What a reading has seen of the level below `round`. -/
structure LevelRead (processes : List TreeProcess) (round : Nat) (found due listed names : List Nat)
    (entries : List (Nat × Nat)) : Prop where
  due : ∀ number, levelOf processes number = some (round + 1) → number ∈ due
  read : ∀ number pid, levelOf processes number = some (round + 1) → pidOf processes number = some pid →
    pid ∈ listed → pid ∈ names ∨ ∃ parent ∈ found, (pid, parent) ∈ entries
  inside : ∀ pid parent, (pid, parent) ∈ entries → parent ∈ found →
    ∃ number level, pidOf processes number = some pid ∧ levelOf processes number = some level ∧
      level ≤ round + 1
  distinct : (entries.map Prod.fst ++ names).Nodup
  listed : ∀ pid ∈ entries.map Prod.fst ++ names, pid ∈ listed

/-- What the walk knows and has sent at each stage. -/
inductive Progress (runner : Nat) (processes : List TreeProcess) :
    List Nat → List (Nat × WalkSignal) → WalkStage → Prop
  | starting (unkilled : Unkilled runner processes) : Progress runner processes [] [] .starting
  | waiting {round : Nat} {found members pids : List Nat} (unkilled : Unkilled runner processes)
      (within : round < maxDepth) (surveyed : Surveyed processes round found members)
      (frozen : Frozen processes round)
      (awaited : ∀ number, levelOf processes number = some round →
        ∃ pid ∈ pids, pidOf processes number = some pid) :
      Progress runner processes found (members.map (·, .stop)) (.waiting round pids)
  | reading {round : Nat} {found members due listed names : List Nat} {entries : List (Nat × Nat)}
      (unkilled : Unkilled runner processes) (within : round < maxDepth)
      (surveyed : Surveyed processes round found members) (frozen : Frozen processes (round + 1))
      (seen : LevelRead processes round found due listed names entries) :
      Progress runner processes found (members.map (·, .stop)) (.reading round due listed names entries)
  | stopping {round : Nat} {found members left stopped halted pending : List Nat}
      (unkilled : Unkilled runner processes) (within : round < maxDepth)
      (surveyed : Surveyed processes round found members) (frozen : Frozen processes (round + 1))
      (stoppedNamed : stopped.map some = halted.map (pidOf processes))
      (leftNamed : left.map some = pending.map (pidOf processes)) (nodup : (halted ++ pending).Nodup)
      (next : ∀ number, number ∈ halted ++ pending ↔ levelOf processes number = some (round + 1)) :
      Progress runner processes found ((members ++ halted).map (·, .stop)) (.stopping round left stopped)
  | killing {found left todo gone : List Nat} {top : Nat}
      (surveyed : Surveyed processes maxDepth found (top :: todo ++ gone))
      (frozen : Frozen processes maxDepth) (isTop : levelOf processes top = some 0)
      (leftNamed : left.map some = todo.reverse.map (pidOf processes))
      (spared : ∀ number ∈ todo, isKilled processes number = false) :
      Progress runner processes found
        ((top :: todo ++ gone).map (·, .stop) ++ gone.reverse.map (·, .kill)) (.killing left)
  | finished {found gone : List Nat} {top : Nat}
      (surveyed : Surveyed processes maxDepth found (top :: gone))
      (frozen : Frozen processes maxDepth) (isTop : levelOf processes top = some 0) :
      Progress runner processes found
        ((top :: gone).map (·, .stop) ++ gone.reverse.map (·, .kill)) .finished

namespace Aged

variable (aged : Aged processes later)
include aged

/-- Nothing appears below a stopped level. -/
theorem levelOf_of_frozen (frozen : Frozen processes round) (isLevel : levelOf later number = some level)
    (within : level ≤ round) : levelOf processes number = some level := by
  rcases aged.fresh number level isLevel with old | ⟨starter, before, rfl, isBefore, running⟩
  · exact old
  · have halted := frozen starter before isBefore (Nat.lt_of_succ_le within)
    rw [running] at halted
    cases halted

theorem frozen_later (frozen : Frozen processes round) : Frozen later round := by
  intro number level isLevel within
  have wasLevel := aged.levelOf_of_frozen frozen isLevel (Nat.le_of_lt within)
  exact aged.stopped number (frozen number level wasLevel within)

theorem named_later (named : pids.map some = members.map (pidOf processes)) :
    pids.map some = members.map (pidOf later) := by
  refine named.trans (List.map_congr_left fun number mem => ?_)
  have isNamed : pidOf processes number ∈ pids.map some := named ▸ List.mem_map_of_mem mem
  obtain ⟨pid, _, isPid⟩ := List.mem_map.mp isNamed
  rw [← isPid]
  exact (aged.pid number pid isPid.symm).symm

theorem pidOf_of_level (isLevel : levelOf processes number = some level)
    (isPid : pidOf later number = some pid) : pidOf processes number = some pid := by
  obtain ⟨process, isProcess, _⟩ := exists_of_levelOf isLevel
  rw [← isPid, aged.pid number process.pid (pidOf_of_getElem? isProcess), pidOf_of_getElem? isProcess]

theorem surveyed_later (frozen : Frozen processes round) (surveyed : Surveyed processes round found members) :
    Surveyed later round found members where
  named := aged.named_later surveyed.named
  nodup := surveyed.nodup
  complete number := by
    rw [surveyed.complete]
    constructor
    · exact fun ⟨level, isLevel, within⟩ => ⟨level, aged.level number level isLevel, within⟩
    · exact fun ⟨level, isLevel, within⟩ => ⟨level, aged.levelOf_of_frozen frozen isLevel within, within⟩
  ordered := by
    have known {number level : Nat} (mem : number ∈ members) (isLevel : levelOf later number = some level) :
        levelOf processes number = some level := by
      obtain ⟨before, isBefore, _⟩ := (surveyed.complete number).mp mem
      rw [isBefore, ← aged.level number before isBefore, isLevel]
    refine surveyed.ordered.imp_of_mem fun mem otherMem upper level below isLevel isBelow => ?_
    exact upper level below (known mem isLevel) (known otherMem isBelow)

theorem reading_later (frozen : Frozen processes (round + 1))
    (seen : LevelRead processes round found due listed names entries) :
    LevelRead later round found due listed names entries where
  due number isLevel := seen.due number (aged.levelOf_of_frozen frozen isLevel (Nat.le_refl _))
  read number pid isLevel isPid := by
    have wasLevel := aged.levelOf_of_frozen frozen isLevel (Nat.le_refl _)
    exact seen.read number pid wasLevel (aged.pidOf_of_level wasLevel isPid)
  inside pid parent isEntry isFound := by
    obtain ⟨number, level, isPid, isLevel, within⟩ := seen.inside pid parent isEntry isFound
    exact ⟨number, level, aged.pid number pid isPid, aged.level number level isLevel, within⟩
  distinct := seen.distinct
  listed := seen.listed

end Aged

theorem Progress.lived {stage : WalkStage} (lived : Lived runner root processes later)
    (progress : Progress runner processes found sent stage) : Progress runner later found sent stage := by
  have aged := lived.aged
  cases progress with
  | starting unkilled => exact .starting (lived.unkilled unkilled)
  | waiting unkilled within surveyed frozen awaited =>
      refine .waiting (lived.unkilled unkilled) within (aged.surveyed_later frozen surveyed)
        (aged.frozen_later frozen) fun number isLevel => ?_
      obtain ⟨pid, mem, isPid⟩ := awaited number (aged.levelOf_of_frozen frozen isLevel (Nat.le_refl _))
      exact ⟨pid, mem, aged.pid number pid isPid⟩
  | reading unkilled within surveyed frozen seen =>
      have upper : Frozen processes _ := fun number level isLevel within =>
        frozen number level isLevel (Nat.lt_succ_of_lt within)
      exact .reading (lived.unkilled unkilled) within (aged.surveyed_later upper surveyed)
        (aged.frozen_later frozen) (aged.reading_later frozen seen)
  | stopping unkilled within surveyed frozen stoppedNamed leftNamed nodup next =>
      have upper : Frozen processes _ := fun number level isLevel within =>
        frozen number level isLevel (Nat.lt_succ_of_lt within)
      refine .stopping (lived.unkilled unkilled) within (aged.surveyed_later upper surveyed)
        (aged.frozen_later frozen) (aged.named_later stoppedNamed) (aged.named_later leftNamed) nodup
        fun number => (next number).trans ?_
      exact ⟨aged.level number _, fun isLevel => aged.levelOf_of_frozen frozen isLevel (Nat.le_refl _)⟩
  | killing surveyed frozen isTop leftNamed spared =>
      exact .killing (aged.surveyed_later frozen surveyed) (aged.frozen_later frozen)
        (aged.level _ 0 isTop) (aged.named_later leftNamed) fun number mem =>
        lived.spared number (spared number mem)
  | finished surveyed frozen isTop =>
      exact .finished (aged.surveyed_later frozen surveyed) (aged.frozen_later frozen) (aged.level _ 0 isTop)

theorem signal_eq (grown : Grown tree.runner tree.root tree.processes) (signal : WalkSignal)
    (alive : isAlive tree.processes number = true) (isPid : pidOf tree.processes number = some pid) :
    tree.signal pid signal = some { tree with
      processes := SandboxTree.marked signal number tree.processes
      sent := tree.sent ++ [(number, signal)] } := by
  rw [SandboxTree.signal, if_pos (isValid_iff.mpr (grown.valid number pid isPid)),
    holder_eq grown alive isPid, Option.map_some]

namespace Surveyed

variable (surveyed : Surveyed processes round found members)
include surveyed

theorem mem_found (mem : number ∈ members) (isPid : pidOf processes number = some pid) : pid ∈ found := by
  have isNamed : pidOf processes number ∈ found.map some := surveyed.named ▸ List.mem_map_of_mem mem
  rw [isPid] at isNamed
  simpa using isNamed

theorem exists_member (isFound : pid ∈ found) :
    ∃ number level, pidOf processes number = some pid ∧ levelOf processes number = some level ∧
      level ≤ round := by
  have isNamed : some pid ∈ members.map (pidOf processes) := surveyed.named ▸ List.mem_map_of_mem isFound
  obtain ⟨number, mem, isPid⟩ := List.mem_map.mp isNamed
  obtain ⟨level, isLevel, within⟩ := (surveyed.complete number).mp mem
  exact ⟨number, level, isPid, isLevel, within⟩

theorem exists_top (grown : Grown runner root processes) :
    ∃ top todo, members = top :: todo ∧ levelOf processes top = some 0 := by
  obtain ⟨number, _, atTop⟩ := grown.root
  have mem := (surveyed.complete number).mpr ⟨0, atTop, Nat.zero_le _⟩
  cases members with
  | nil => cases mem
  | cons top todo =>
      refine ⟨top, todo, rfl, ?_⟩
      rcases List.mem_cons.mp mem with rfl | below
      · exact atTop
      · obtain ⟨level, isLevel, _⟩ := (surveyed.complete top).mp List.mem_cons_self
        have upper := (List.pairwise_cons.mp surveyed.ordered).1 number below level 0 isLevel atTop
        rw [isLevel, Nat.le_zero.mp upper]

theorem level_of_parent {parent : Nat} (grown : Grown runner root processes)
    (unkilled : Unkilled runner processes) (alive : isAlive processes number = true)
    (isParent : parentAt processes number = some parent) (isFound : parent ∈ found) :
    ∃ level, levelOf processes number = some level ∧ level ≤ round + 1 := by
  obtain ⟨member, upper, isPid, isUpper, within⟩ := surveyed.exists_member isFound
  cases isLevel : levelOf processes number with
  | none =>
      exact absurd (isParent.trans isPid.symm) (unkilled.outside number member upper alive isLevel isUpper)
  | some level =>
      refine ⟨level, rfl, ?_⟩
      cases level with
      | zero => exact Nat.zero_le _
      | succ above =>
          obtain ⟨starter, isStarter, isAbove⟩ := grown.exists_starter isLevel
          have living number level isLevel := grown.living number level isLevel (unkilled.unkilled number)
          have samePid : pidOf processes starter = pidOf processes member := by
            rw [← unkilled.parents number starter above isStarter isAbove, isParent, isPid]
          have same := grown.distinct starter member (living starter above isAbove)
            (living member upper isUpper) samePid
          rw [same, isUpper] at isAbove
          exact Nat.succ_le_succ (Option.some.inj isAbove ▸ within)

theorem deepen (stoppedNamed : stopped.map some = halted.map (pidOf processes)) (nodup : halted.Nodup)
    (next : ∀ number, number ∈ halted ↔ levelOf processes number = some (round + 1)) :
    Surveyed processes (round + 1) (found ++ stopped) (members ++ halted) where
  named := by rw [List.map_append, List.map_append, surveyed.named, stoppedNamed]
  nodup := by
    refine List.nodup_append.mpr ⟨surveyed.nodup, nodup, ?_⟩
    rintro number mem _ below rfl
    obtain ⟨level, isLevel, within⟩ := (surveyed.complete number).mp mem
    rw [(next number).mp below, Option.some.injEq] at isLevel
    omega
  complete number := by
    rw [List.mem_append, surveyed.complete, next]
    grind
  ordered := by
    refine List.pairwise_append.mpr ⟨surveyed.ordered, List.pairwise_of_forall_mem_list ?_, ?_⟩ <;>
      intro number mem other below level under isLevel isUnder <;> rw [(next other).mp below] at isUnder
    · rw [(next number).mp mem] at isLevel
      exact Nat.le_of_eq (Option.some.inj (isLevel.symm.trans isUnder))
    · obtain ⟨_, isUpper, _⟩ := (surveyed.complete number).mp mem
      rw [isLevel, Option.some.injEq] at isUpper
      rw [Option.some.injEq] at isUnder
      omega

end Surveyed

theorem exists_parent (grown : Grown runner root processes) (unkilled : Unkilled runner processes)
    (isLevel : levelOf processes number = some (level + 1)) :
    ∃ starter parent, levelOf processes starter = some level ∧ pidOf processes starter = some parent ∧
      parentAt processes number = some parent := by
  obtain ⟨starter, isStarter, isAbove⟩ := grown.exists_starter isLevel
  obtain ⟨process, isProcess, _⟩ := exists_of_levelOf isAbove
  have isPid := pidOf_of_getElem? isProcess
  have isParent := unkilled.parents number starter level isStarter isAbove
  exact ⟨starter, process.pid, isAbove, isPid, isParent.trans isPid⟩

theorem exists_numbers {Holds : Nat → Prop}
    (named : ∀ pid ∈ pids, ∃ number, pidOf processes number = some pid ∧ Holds number) :
    ∃ numbers : List Nat, pids.map some = numbers.map (pidOf processes) ∧
      ∀ number ∈ numbers, Holds number := by
  induction pids with
  | nil => exact ⟨[], rfl, by simp⟩
  | cons pid _ ih =>
      obtain ⟨number, isPid, holds⟩ := named pid List.mem_cons_self
      obtain ⟨numbers, isNamed, hold⟩ := ih fun other mem => named other (List.mem_cons_of_mem _ mem)
      exact ⟨number :: numbers, by simp [isNamed, isPid], by simpa using ⟨holds, hold⟩⟩

theorem Grown.none_below (grown : Grown runner root processes)
    (none : ∀ number, levelOf processes number ≠ some (round + 1))
    (isLevel : levelOf processes number = some level) : level ≤ round := by
  induction level generalizing number with
  | zero => exact Nat.zero_le _
  | succ _ ih =>
      obtain ⟨_, _, isAbove⟩ := grown.exists_starter isLevel
      have within := ih isAbove
      rcases Nat.lt_or_eq_of_le within with upper | rfl
      · exact upper
      · exact absurd isLevel (none number)

theorem Progress.start_killing (grown : Grown runner root processes) (unkilled : Unkilled runner processes)
    (surveyed : Surveyed processes maxDepth found members) (frozen : Frozen processes maxDepth) :
    Progress runner processes found (members.map (·, .stop)) (.killing found.tail.reverse) := by
  obtain ⟨top, todo, rfl, isTop⟩ := surveyed.exists_top grown
  have leftNamed : found.tail.reverse.map some = todo.reverse.map (pidOf processes) := by
    rw [List.map_reverse, List.map_reverse, List.map_tail, surveyed.named, List.map_cons, List.tail_cons]
  have whole : Surveyed processes maxDepth found (top :: todo ++ []) := by rwa [List.append_nil]
  simpa using Progress.killing whole frozen isTop leftNamed fun number _ => unkilled.unkilled number

/-- The walk at any point of a run, with `first` the root. -/
structure Walking (first : Nat) (tree : SandboxTree) : Prop where
  grown : Grown tree.runner tree.root tree.processes
  isFirst : levelOf tree.processes first = some 0
  progress : Progress tree.runner tree.processes tree.found tree.sent tree.stage

def Walks (event : TreeEvent) : Prop :=
  ∀ {first tree after}, Walking first tree → Assumed tree event → tree.step event = some after →
    Walking first after

namespace Walks

theorem begins : Walks .begins := by
  rintro first ⟨runner, root, processes, stage, found, sent⟩ after ⟨grown, isFirst, progress⟩ assumed stepped
  simp only [SandboxTree.step] at stepped
  split at stepped
  · cases progress with
    | starting unkilled =>
        obtain ⟨top, isRoot, atTop⟩ := grown.root
        have alive := grown.living top 0 atTop (unkilled.unkilled top)
        rw [if_pos ((parentOf_eq grown alive isRoot).trans (unkilled.rootParent top atTop)),
          signal_eq grown .stop alive isRoot] at stepped
        cases stepped
        have surveyed : Surveyed processes 0 [root] [top] := by
          refine ⟨by simp [isRoot], by simp, fun number => ?_, by simp⟩
          rw [List.mem_singleton]
          constructor
          · rintro rfl
            exact ⟨0, atTop, Nat.le_refl 0⟩
          · rintro ⟨level, isLevel, within⟩
            exact grown.rootOnly number top (Nat.le_zero.mp within ▸ isLevel) atTop
        refine ⟨grown, isFirst, .waiting unkilled (by decide) surveyed
          (fun _ _ _ none => absurd none (Nat.not_lt_zero _)) ?_⟩
        intro number isLevel
        exact ⟨root, List.mem_singleton.mpr rfl, grown.rootOnly number top isLevel atTop ▸ isRoot⟩
  · cases stepped

theorem waits : Walks .waits := by
  rintro first ⟨runner, root, processes, stage, found, sent⟩ after ⟨grown, isFirst, progress⟩ assumed stepped
  simp only [SandboxTree.step] at stepped
  split at stepped
  next round _ =>
    cases stepped
    cases progress with
    | waiting unkilled within surveyed frozen awaited =>
        have living number level isLevel := grown.living number level isLevel (unkilled.unkilled number)
        have deeper : Frozen processes (round + 1) := by
          intro number level isLevel inside
          rcases Nat.lt_succ_iff_lt_or_eq.mp inside with upper | rfl
          · exact frozen number level isLevel upper
          · obtain ⟨_, mem, isPid⟩ := awaited number isLevel
            obtain ⟨process, isProcess, rfl⟩ := exists_of_pidOf isPid
            have halted := List.all_eq_true.mp assumed process (List.mem_of_getElem? isProcess)
            have alive := living number level isLevel
            rw [isAlive_of_getElem? isProcess] at alive
            rw [isStopped, isProcess, Option.any_some]
            simpa [WalkStage.awaited, mem, alive] using halted
        refine ⟨grown, isFirst, .reading unkilled within surveyed deeper
          ⟨fun number isLevel => ?_, ?_, ?_, ?_, ?_⟩⟩
        · have alive := living number _ isLevel
          obtain ⟨_, isProcess, _⟩ := exists_of_isAlive alive
          exact List.mem_filter.mpr ⟨List.mem_range.mpr (List.getElem?_eq_some_iff.mp isProcess).1, alive⟩
        all_goals simp
  · cases stepped

theorem lists : Walks (.lists pid) := by
  rintro first ⟨runner, root, processes, stage, found, sent⟩ after ⟨grown, isFirst, progress⟩ assumed stepped
  simp only [SandboxTree.step] at stepped
  split at stepped
  · obtain ⟨⟨unlisted, _⟩, same⟩ := Option.ite_none_right_eq_some.mp stepped
    cases same
    cases progress with
    | reading unkilled within surveyed frozen seen =>
        refine ⟨grown, isFirst, .reading unkilled within surveyed frozen ⟨seen.due, ?_, seen.inside, ?_, ?_⟩⟩
        · intro number other isLevel isPid mem
          rcases List.mem_append.mp mem with earlier | isNew
          · exact (seen.read number other isLevel isPid earlier).imp_left (List.mem_append_left _)
          · exact .inl (List.mem_append_right _ isNew)
        · rw [← List.append_assoc]
          refine List.nodup_append.mpr ⟨seen.distinct, by simp, ?_⟩
          rintro other mem _ isNew rfl
          exact unlisted (List.mem_singleton.mp isNew ▸ seen.listed other mem)
        · rw [← List.append_assoc]
          intro other mem
          exact List.mem_append.mpr ((List.mem_append.mp mem).imp_left (seen.listed other))
  · cases stepped

theorem reads : Walks .reads := by
  rintro first ⟨runner, root, processes, stage, found, sent⟩ after ⟨grown, isFirst, progress⟩ assumed stepped
  simp only [SandboxTree.step] at stepped
  split at stepped
  next round _ _ pid _ _ =>
    cases stepped
    cases progress with
    | reading unkilled within surveyed frozen seen =>
        refine ⟨grown, isFirst, .reading unkilled within surveyed frozen ⟨seen.due, ?_, ?_, ?_, ?_⟩⟩
        · intro number other isLevel isPid mem
          rcases seen.read number other isLevel isPid mem with waiting | ⟨parent, isFound, isEntry⟩
          · rcases List.mem_cons.mp waiting with rfl | waiting
            · obtain ⟨starter, parent, isAbove, isParentPid, isParent⟩ := exists_parent grown unkilled isLevel
              have isMember := (surveyed.complete starter).mpr ⟨round, isAbove, Nat.le_refl _⟩
              have alive := grown.living number _ isLevel (unkilled.unkilled number)
              refine .inr ⟨parent, surveyed.mem_found isMember isParentPid, List.mem_append_right _
                (Option.mem_toList.mpr (Option.map_eq_some_iff.mpr ⟨parent, ?_, rfl⟩))⟩
              exact (parentOf_eq grown alive isPid).trans isParent
            · exact .inl waiting
          · exact .inr ⟨parent, isFound, List.mem_append_left _ isEntry⟩
        · intro other parent isEntry isFound
          rcases List.mem_append.mp isEntry with earlier | isNew
          · exact seen.inside other parent earlier isFound
          · obtain ⟨_, isParent, same⟩ := Option.map_eq_some_iff.mp (Option.mem_toList.mp isNew)
            cases same
            obtain ⟨number, alive, isPid, isParentAt⟩ := parentOf_some isParent
            obtain ⟨level, isLevel, inside⟩ := surveyed.level_of_parent grown unkilled alive isParentAt
              isFound
            exact ⟨number, level, isPid, isLevel, inside⟩
        · have distinct := seen.distinct
          cases SandboxTree.parentOf _ pid <;> grind
        · have isListed := seen.listed
          cases SandboxTree.parentOf _ pid <;> grind
  · cases stepped

theorem ends : Walks .ends := by
  rintro first ⟨runner, root, processes, stage, found, sent⟩ after ⟨grown, isFirst, progress⟩ assumed stepped
  simp only [SandboxTree.step] at stepped
  split at stepped
  next round _ listed entries =>
    obtain ⟨complete, same⟩ := Option.ite_none_right_eq_some.mp stepped
    cases same
    cases progress with
    | reading unkilled within surveyed frozen seen =>
        have living number level isLevel := grown.living number level isLevel (unkilled.unkilled number)
        have fresh : ∀ pid ∈ (entries.filter fun entry => entry.2 ∈ found && entry.1 ∉ found).map Prod.fst,
            ∃ number, pidOf processes number = some pid ∧ levelOf processes number = some (round + 1) := by
          intro pid mem
          obtain ⟨⟨_, parent⟩, kept, rfl⟩ := List.mem_map.mp mem
          obtain ⟨isEntry, isFresh⟩ := List.mem_filter.mp kept
          rw [Bool.and_eq_true, decide_eq_true_eq, decide_eq_true_eq] at isFresh
          obtain ⟨number, level, isPid, isLevel, inside⟩ := seen.inside _ parent isEntry isFresh.1
          rcases Nat.lt_or_eq_of_le inside with upper | rfl
          · have isMember := (surveyed.complete number).mpr ⟨level, isLevel, Nat.le_of_lt_succ upper⟩
            exact absurd (surveyed.mem_found isMember isPid) isFresh.2
          · exact ⟨number, isPid, isLevel⟩
        obtain ⟨numbers, named, isNext⟩ := exists_numbers fresh
        have nodup : numbers.Nodup := by
          refine List.Nodup.of_map (pidOf processes) (named ▸ List.Nodup.map (fun _ _ => Option.some.inj) ?_)
          have distinct := seen.distinct
          rw [List.append_nil] at distinct
          exact distinct.sublist (List.filter_sublist.map Prod.fst)
        have isSeen (number : Nat) (isLevel : levelOf processes number = some (round + 1)) :
            number ∈ numbers := by
          have alive := living number _ isLevel
          obtain ⟨process, isProcess, _⟩ := exists_of_isAlive alive
          have isPid := pidOf_of_getElem? isProcess
          have isListed : process.pid ∈ listed := by
            have checked := List.all_eq_true.mp complete number (seen.due number isLevel)
            rw [isAlive_of_getElem? isProcess] at alive
            simpa [isProcess, alive] using checked
          obtain ⟨_, isFound, isEntry⟩ :=
            (seen.read number _ isLevel isPid isListed).resolve_left List.not_mem_nil
          have isNew : process.pid ∉ found := by
            intro known
            obtain ⟨member, level, isMember, isUpper, _⟩ := surveyed.exists_member known
            have same := grown.distinct member number (living member level isUpper) (living number _ isLevel)
              (isMember.trans isPid.symm)
            rw [same, isLevel, Option.some.injEq] at isUpper
            omega
          have isFresh : process.pid ∈
              (entries.filter fun entry => entry.2 ∈ found && entry.1 ∉ found).map Prod.fst :=
            List.mem_map.mpr ⟨_, List.mem_filter.mpr ⟨isEntry, by simp [isFound, isNew]⟩, rfl⟩
          have isNamed : some process.pid ∈ numbers.map (pidOf processes) := named ▸ List.mem_map_of_mem
            isFresh
          obtain ⟨other, mem, otherPid⟩ := List.mem_map.mp isNamed
          rwa [← grown.distinct other number (living other _ (isNext other mem)) (living number _ isLevel)
            (otherPid.trans isPid.symm)]
        have stoppedNamed : ([] : List Nat).map some = ([] : List Nat).map (pidOf processes) := rfl
        have progress := Progress.stopping unkilled within surveyed frozen stoppedNamed named nodup
          fun number => ⟨isNext number, isSeen number⟩
        rw [List.append_nil] at progress
        exact ⟨grown, isFirst, progress⟩
  · cases stepped

theorem stops : Walks .stops := by
  rintro first ⟨runner, root, processes, stage, found, sent⟩ after ⟨grown, isFirst, progress⟩ assumed stepped
  dsimp only at grown isFirst progress
  simp only [SandboxTree.step] at stepped
  split at stepped
  next pid _ stopped =>
    cases progress with
    | stopping unkilled within surveyed frozen stoppedNamed leftNamed nodup next =>
        obtain ⟨number, _, rfl, isPid, restNamed⟩ := List.map_eq_cons_iff.mp leftNamed.symm
        have isLevel := (next number).mp (List.mem_append_right _ List.mem_cons_self)
        have alive := grown.living number _ isLevel (unkilled.unkilled number)
        rw [signal_eq grown .stop alive isPid] at stepped
        cases stepped
        rw [List.append_cons] at nodup next
        refine ⟨grown, isFirst, ?_⟩
        have progress := Progress.stopping unkilled within surveyed frozen
          (by simp [stoppedNamed, isPid] : (stopped ++ [pid]).map some = _) restNamed.symm nodup next
        rw [← List.append_assoc, List.map_append] at progress
        exact progress
  · cases stepped

theorem proceeds : Walks .proceeds := by
  rintro first ⟨runner, root, processes, stage, found, sent⟩ after ⟨grown, isFirst, progress⟩ assumed stepped
  simp only [SandboxTree.step] at stepped
  split at stepped
  next round stopped =>
    cases progress with
    | stopping unkilled _ surveyed frozen stoppedNamed leftNamed nodup next =>
        obtain rfl := List.map_eq_nil_iff.mp leftNamed.symm
        rw [List.append_nil] at nodup next
        split at stepped
        next isEmpty =>
          cases stepped
          subst isEmpty
          obtain rfl := List.map_eq_nil_iff.mp stoppedNamed.symm
          have noneBelow {number level : Nat} (isLevel : levelOf processes number = some level) :
              level ≤ round :=
            grown.none_below (fun number isLevel => List.not_mem_nil ((next number).mpr isLevel)) isLevel
          rw [List.append_nil]
          refine ⟨grown, isFirst, .start_killing grown unkilled
            ⟨surveyed.named, surveyed.nodup, fun number => ?_, surveyed.ordered⟩ fun number level isLevel _ =>
              frozen number level isLevel (Nat.lt_succ_of_le (noneBelow isLevel))⟩
          rw [surveyed.complete]
          exact ⟨fun ⟨level, isLevel, _⟩ => ⟨level, isLevel, grown.shallow number level isLevel⟩,
            fun ⟨level, isLevel, _⟩ => ⟨level, isLevel, noneBelow isLevel⟩⟩
        · cases stepped
          have deeper := surveyed.deepen stoppedNamed nodup next
          refine ⟨grown, isFirst, ?_⟩
          split
          next inside =>
            refine .waiting unkilled inside deeper frozen fun number isLevel => ?_
            have isNamed : pidOf processes number ∈ stopped.map some :=
              stoppedNamed ▸ List.mem_map_of_mem ((next number).mpr isLevel)
            obtain ⟨pid, mem, isPid⟩ := List.mem_map.mp isNamed
            exact ⟨pid, mem, isPid.symm⟩
          · have atLast : round + 1 = maxDepth := by omega
            rw [atLast] at deeper frozen
            exact .start_killing grown unkilled deeper frozen
  · cases stepped

theorem kills : Walks .kills := by
  rintro first ⟨runner, root, processes, stage, found, sent⟩ after ⟨grown, isFirst, progress⟩ assumed stepped
  simp only [SandboxTree.step] at stepped
  split at stepped
  next left =>
    cases progress with
    | @killing found left todo gone top surveyed frozen isTop leftNamed spared =>
        obtain ⟨number, rest, isTodo, isPid, restNamed⟩ := List.map_eq_cons_iff.mp leftNamed.symm
        obtain rfl := List.reverse_eq_cons_iff.mp isTodo
        have isMember := List.mem_append_right rest.reverse (List.mem_singleton_self number)
        obtain ⟨level, isLevel, _⟩ :=
          (surveyed.complete number).mp (List.mem_append_left _ (List.mem_cons_of_mem _ isMember))
        have alive := grown.living number level isLevel (spared number isMember)
        rw [signal_eq grown .kill alive isPid] at stepped
        cases stepped
        obtain ⟨aged, grownLater, others⟩ := kill_keeps grown number
        have nodup := surveyed.nodup
        have whole := aged.surveyed_later frozen surveyed
        rw [← List.cons_append, List.append_assoc, List.singleton_append] at whole nodup
        have sparedLater : ∀ other ∈ rest.reverse,
            isKilled (processes.modify number TreeProcess.condemn) other = false := by
          intro other mem
          rw [others other fun same => ?_, spared other (List.mem_append_left _ mem)]
          subst same
          exact (List.nodup_append.mp nodup).2.2 other (List.mem_cons_of_mem _ mem) other List.mem_cons_self
            rfl
        have leftLater : left.map some =
            rest.reverse.reverse.map (pidOf (processes.modify number TreeProcess.condemn)) := by
          rw [List.reverse_reverse]
          exact aged.named_later restNamed.symm
        have progress : Progress runner _ found _ _ :=
          .killing whole (aged.frozen_later frozen) (aged.level _ 0 isTop) leftLater sparedLater
        exact ⟨grownLater, aged.level _ 0 isFirst, by simpa [SandboxTree.marked] using progress⟩
  · cases stepped
    cases progress with
    | killing surveyed frozen isTop leftNamed =>
        obtain rfl := List.reverse_eq_nil_iff.mp (List.map_eq_nil_iff.mp leftNamed.symm)
        exact ⟨grown, isFirst, .finished surveyed frozen isTop⟩
  · cases stepped

end Walks

theorem Walking.step (walking : Walking first tree)
    (stepped : (treeSystem.restrict Assumed).step tree event after) : Walking first after := by
  obtain ⟨assumed, stepped⟩ := stepped
  have stepped : tree.step event = some after := stepped
  have own (lived : ∃ later, after = { tree with processes := later } ∧
      Lived tree.runner tree.root tree.processes later) : Walking first after := by
    obtain ⟨_, rfl, lived⟩ := lived
    exact ⟨lived.grown, lived.aged.level _ 0 walking.isFirst, walking.progress.lived lived⟩
  cases event with
  | forks => exact own (forks_lives walking.grown stepped assumed)
  | exits => exact own (exits_lives walking.grown stepped assumed)
  | halts number => exact own ⟨_, (Option.some.inj stepped).symm, halt_keeps walking.grown number⟩
  | begins => exact Walks.begins walking assumed stepped
  | waits => exact Walks.waits walking assumed stepped
  | lists => exact Walks.lists walking assumed stepped
  | reads => exact Walks.reads walking assumed stepped
  | ends => exact Walks.ends walking assumed stepped
  | stops => exact Walks.stops walking assumed stepped
  | proceeds => exact Walks.proceeds walking assumed stepped
  | kills => exact Walks.kills walking assumed stepped

theorem Walking.of_run (isInitial : treeSystem.initial start) (isRoot : start.holder start.root = some first)
    (run : (treeSystem.restrict Assumed).Run start trace tree) : Walking first tree := by
  obtain ⟨grown, unkilled, isStarting, noneFound, noneSent⟩ := isInitial
  obtain ⟨top, topPid, atTop⟩ := grown.root
  have held := holder_eq grown (grown.living top 0 atTop (unkilled.unkilled top)) topPid
  obtain rfl : top = first := Option.some.inj (held.symm.trans isRoot)
  refine run.keeps (Walking top) (fun stepped walking => walking.step stepped) ⟨grown, atTop, ?_⟩
  rw [isStarting, noneFound, noneSent]
  exact .starting unkilled

/-- `number` was started by `ancestor` or by a process that descends from it. -/
def Descends (processes : List TreeProcess) : Nat → Nat → Prop :=
  Relation.TransGen fun starter number => starterOf processes number = some starter

theorem Grown.level_lt_of_descends (grown : Grown runner root processes)
    (descends : Descends processes number other) (isLevel : levelOf processes number = some level) :
    ∃ below, levelOf processes other = some below ∧ level < below := by
  induction descends with
  | single started =>
      refine ⟨level + 1, ?_, Nat.lt_succ_self _⟩
      rw [grown.started _ number started, isLevel, Option.map_some]
  | tail _ started ih =>
      obtain ⟨above, isAbove, upper⟩ := ih
      refine ⟨above + 1, ?_, Nat.lt_succ_of_lt upper⟩
      rw [grown.started _ _ started, isAbove, Option.map_some]

theorem Grown.descends_of_level (grown : Grown runner root processes) (isTop : levelOf processes top = some 0)
    (isLevel : levelOf processes number = some (level + 1)) : Descends processes top number := by
  induction level generalizing number with
  | zero =>
      obtain ⟨starter, isStarter, atTop⟩ := grown.exists_starter isLevel
      exact .single (grown.rootOnly starter top atTop isTop ▸ isStarter)
  | succ _ ih =>
      obtain ⟨_, isStarter, isAbove⟩ := grown.exists_starter isLevel
      exact (ih isAbove).tail isStarter

/-- The kills are sent from the bottom up. -/
theorem Surveyed.kills_ordered (surveyed : Surveyed processes maxDepth found (top :: gone)) :
    ((top :: gone).map (·, WalkSignal.stop) ++ gone.reverse.map (·, WalkSignal.kill)).Pairwise
      fun earlier later : Nat × WalkSignal => earlier.2 = WalkSignal.kill → later.2 = WalkSignal.kill →
        ∀ level below, levelOf processes earlier.1 = some below → levelOf processes later.1 = some level →
          level ≤ below := by
  refine List.pairwise_append.mpr ⟨?_, ?_, ?_⟩
  · exact List.pairwise_map.mpr (List.pairwise_of_forall fun _ _ => nofun)
  · refine List.pairwise_map.mpr (List.pairwise_reverse.mpr ?_)
    exact (List.pairwise_cons.mp surveyed.ordered).2.imp fun upper _ _ level below isBelow isLevel =>
      upper level below isLevel isBelow
  · intro stop isStop
    obtain ⟨_, _, rfl⟩ := List.mem_map.mp isStop
    exact fun _ _ => nofun

/-- When the walk is over, SIGKILL was sent to every process that ever descended from the root, to each
after all that descend from it, the root was only stopped, and no other process was sent a signal. -/
theorem walk_kills_the_tree (isInitial : treeSystem.initial start)
    (isRoot : start.holder start.root = some top)
    (run : (treeSystem.restrict Assumed).Run start trace tree) (isOver : tree.stage = .finished) :
    (∀ number, Descends tree.processes top number → (number, .kill) ∈ tree.sent) ∧
    (∀ number below, Descends tree.processes top number → Descends tree.processes number below →
      ∀ earlier later, tree.sent = earlier ++ (number, .kill) :: later →
        (below, .kill) ∈ earlier ∧ (below, .kill) ∉ later) ∧
    (top, .stop) ∈ tree.sent ∧ (top, .kill) ∉ tree.sent ∧
    ∀ number signal, (number, signal) ∈ tree.sent → number = top ∨ Descends tree.processes top number := by
  obtain ⟨grown, isTop, progress⟩ := Walking.of_run isInitial isRoot run
  obtain ⟨_, _, processes, _, found, _⟩ := tree
  dsimp only at grown isTop progress isOver ⊢
  subst isOver
  cases progress with
  | @finished found gone first surveyed frozen isFirst =>
      obtain rfl := grown.rootOnly first top isFirst isTop
      have isGone {number : Nat} (descends : Descends processes first number) : number ∈ gone := by
        obtain ⟨level, isLevel, below⟩ := grown.level_lt_of_descends descends isTop
        have mem := (surveyed.complete number).mpr ⟨level, isLevel, grown.shallow number level isLevel⟩
        refine (List.mem_cons.mp mem).resolve_left fun same => ?_
        rw [same, isTop, Option.some.injEq] at isLevel
        omega
      have isKilled {number : Nat} (mem : number ∈ gone) :
          (number, WalkSignal.kill) ∈ (first :: gone).map (·, .stop) ++ gone.reverse.map (·, .kill) :=
        List.mem_append_right _ (List.mem_map.mpr ⟨number, List.mem_reverse.mpr mem, rfl⟩)
      refine ⟨fun number descends => isKilled (isGone descends), ?_, ?_, ?_, ?_⟩
      · intro number below descends isBelow earlier later isSent
        obtain ⟨level, isLevel, _⟩ := grown.level_lt_of_descends descends isTop
        obtain ⟨deeper, isDeeper, under⟩ := grown.level_lt_of_descends isBelow isLevel
        have ordered := surveyed.kills_ordered
        rw [isSent] at ordered
        have notLater : (below, .kill) ∉ later := fun mem =>
          Nat.not_le_of_lt under ((List.pairwise_cons.mp (List.pairwise_append.mp ordered).2.1).1 _ mem rfl
            rfl
            deeper level isLevel isDeeper)
        have mem := isKilled (isGone (descends.trans isBelow))
        rw [isSent, List.mem_append, List.mem_cons] at mem
        rcases mem with before | same | after
        · exact ⟨before, notLater⟩
        · rw [(Prod.mk.inj same).1, isLevel, Option.some.injEq] at isDeeper
          omega
        · exact absurd after notLater
      · exact List.mem_append_left _ (List.mem_map.mpr ⟨first, List.mem_cons_self, rfl⟩)
      · have apart := (List.nodup_cons.mp surveyed.nodup).1
        simpa using apart
      · intro number signal isSent
        have mem : number ∈ first :: gone := by
          rcases List.mem_append.mp isSent with stop | kill
          · obtain ⟨_, mem, same⟩ := List.mem_map.mp stop
            exact (Prod.mk.inj same).1 ▸ mem
          · obtain ⟨_, mem, same⟩ := List.mem_map.mp kill
            exact (Prod.mk.inj same).1 ▸ List.mem_cons_of_mem _ (List.mem_reverse.mp mem)
        obtain ⟨level, isLevel, _⟩ := (surveyed.complete number).mp mem
        cases level with
        | zero => exact .inl (grown.rootOnly number first isLevel isTop)
        | succ => exact .inr (grown.descends_of_level isTop isLevel)

/-- A sandbox whose root starts a second process before its stop takes effect, and whose first process
starts one while `/proc` is read. -/
theorem growing_tree_is_killed :
    let start : SandboxTree :=
      { runner := 7, root := 10
        processes := [{ pid := 10, parent := 7, level := some 0 }, { pid := 20, parent := 0 }] }
    treeSystem.initial start ∧ ∃ trace tree, (treeSystem.restrict Assumed).Run start trace tree ∧
      tree.stage = .finished ∧ tree.processes.length = 5 ∧
      ∀ number, Descends tree.processes 0 number → (number, .kill) ∈ tree.sent := by
  intro start
  have isInitial : treeSystem.initial start := by
    have pids number : pidOf start.processes number =
        if number = 0 then some 10 else if number = 1 then some 20 else none := by
      rcases number with _ | _ | number <;> rfl
    have levels number : levelOf start.processes number = if number = 0 then some 0 else none := by
      rcases number with _ | _ | number <;> rfl
    have parents number : parentAt start.processes number =
        if number = 0 then some 7 else if number = 1 then some 0 else none := by
      rcases number with _ | _ | number <;> rfl
    have starters number : starterOf start.processes number = none := by
      rcases number with _ | _ | number <;> rfl
    have alive number : isAlive start.processes number = decide (number < 2) := by
      rcases number with _ | _ | number <;> rfl
    have killed number : isKilled start.processes number = false := by
      rcases number with _ | _ | number <;> rfl
    refine ⟨⟨?_, ?_, ⟨0, rfl, rfl⟩, ?_, ?_, ?_, ?_, ?_, ?_⟩, ⟨killed, ?_, ?_, ?_, ?_⟩, rfl, rfl, rfl⟩ <;>
      simp only [pids, levels, parents, starters, alive] <;> grind
  let look (pids : List Nat) : List TreeEvent := pids.flatMap fun pid => [.lists pid, .reads]
  obtain ⟨trace, tree, run, isOver, length⟩ := treeSystem.exists_event_run
    (fun stepped => stepped) Assumed start
    ([.forks 0 11, .begins, .forks 0 12, .halts 0, .waits, .lists 11, .reads, .forks 2 13] ++
      look [10, 12, 20] ++ [.ends, .stops, .stops, .proceeds, .halts 2, .halts 3, .waits] ++ look
        [10, 11, 12, 13, 20] ++
      [.ends, .stops, .proceeds, .halts 4, .waits] ++ look [10, 11, 12, 13, 20] ++
      [.ends, .proceeds, .kills, .exits 4 11, .kills, .kills, .kills])
    (fun tree => tree.stage = .finished ∧ tree.processes.length = 5) (by decide +kernel)
  exact ⟨isInitial, trace, tree, run, isOver, length, (walk_kills_the_tree isInitial (by decide) run
    isOver).1⟩

end CodeSpace.Runner
