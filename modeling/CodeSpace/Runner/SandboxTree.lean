import Mathlib.Algebra.Group.Nat.Defs
import CodeSpace.Transition.Run

namespace CodeSpace.Runner

open Transition

/-! `kill_descendants` of `crates/runner/src/sandbox_tree.rs`, step by step, beside the processes it
looks at: they start others, exit and stop between any two of its steps, also between two entries of one
reading of `/proc`. A signal reaches whichever process has the ID when it is sent. -/

/-- A process that is or was there. `starter` and `level` are not in the source: which process started
it, and how far below the root that puts it. -/
structure TreeProcess where
  pid : Nat
  parent : Nat
  starter : Option Nat := none
  level : Option Nat := none
  stopped : Bool := false
  killed : Bool := false
  alive : Bool := true
deriving DecidableEq, Repr

def TreeProcess.halt (process : TreeProcess) : TreeProcess :=
  { process with stopped := true }

def TreeProcess.condemn (process : TreeProcess) : TreeProcess :=
  { process with killed := true }

/-- A process that `process`, which `starter` numbers, starts. -/
def TreeProcess.child (starter pid : Nat) (process : TreeProcess) : TreeProcess where
  pid := pid
  parent := process.pid
  starter := some starter
  level := process.level.map (· + 1)

inductive WalkSignal
  | stop
  | kill
deriving DecidableEq, Repr

def maxDepth : Nat := 64

/-- Where the walk is. A reading has the processes that were there when it began, the names it listed,
those of them whose parent is still to be read, and its entries. -/
inductive WalkStage
  | starting
  | waiting (round : Nat) (stopping : List Nat)
  | reading (round : Nat) (due listed names : List Nat) (entries : List (Nat × Nat))
  | stopping (round : Nat) (left stopped : List Nat)
  | killing (left : List Nat)
  | finished
deriving DecidableEq, Repr

/-- The processes that `wait_stopped` waits for. -/
def WalkStage.awaited : WalkStage → List Nat
  | .waiting _ pids => pids
  | _ => []

/-- The walk, by the Runner whose process ID is `runner`, and the processes. `found` also stands for
`known`, which has the same members. -/
structure SandboxTree where
  runner : Nat
  root : Nat
  processes : List TreeProcess
  stage : WalkStage := .starting
  found : List Nat := []
  sent : List (Nat × WalkSignal) := []
deriving DecidableEq, Repr

inductive TreeEvent
  | forks (starter pid : Nat)
  | exits (number reaper : Nat)
  | halts (number : Nat)
  | begins
  | waits
  | lists (pid : Nat)
  | reads
  | ends
  | stops
  | proceeds
  | kills
deriving DecidableEq, Repr

namespace SandboxTree

def holder (tree : SandboxTree) (pid : Nat) : Option Nat :=
  tree.processes.findIdx? fun process => process.alive && process.pid = pid

def parentOf (tree : SandboxTree) (pid : Nat) : Option Nat :=
  (tree.processes.find? fun process => process.alive && process.pid = pid).map TreeProcess.parent

def isValid (tree : SandboxTree) (pid : Nat) : Bool :=
  pid ≠ tree.runner && 0 < pid && pid < 2 ^ 31

/-- The processes after a signal was sent to one of them. -/
def marked (signal : WalkSignal) (number : Nat) (processes : List TreeProcess) : List TreeProcess :=
  match signal with
  | .stop => processes
  | .kill => processes.modify number TreeProcess.condemn

/-- Nothing where the signal is not sent. -/
def signal (pid : Nat) (signal : WalkSignal) (tree : SandboxTree) : Option SandboxTree :=
  if tree.isValid pid then
    (tree.holder pid).map fun number =>
      { tree with
        processes := marked signal number tree.processes
        sent := tree.sent ++ [(number, signal)] }
  else none

def present (tree : SandboxTree) : List Nat :=
  (List.range tree.processes.length).filter fun number => tree.processes[number]?.any TreeProcess.alive

def fork (starter pid : Nat) (tree : SandboxTree) : Option SandboxTree :=
  match tree.processes[starter]? with
  | some process =>
      if process.alive && !process.stopped && tree.isValid pid && (tree.holder pid).isNone then
        some { tree with processes := tree.processes ++ [process.child starter pid] }
      else none
  | none => none

/-- The process is gone and its children have another parent. -/
def departed (number pid reaper position : Nat) (process : TreeProcess) : TreeProcess :=
  if position = number then { process with alive := false }
  else if process.parent = pid then { process with parent := reaper }
  else process

/-- Whether the children of a process that exits can get this parent: a process that is there, or one
that the walk sends no signal. -/
def adopts (number reaper : Nat) (process : TreeProcess) (tree : SandboxTree) : Bool :=
  !tree.isValid reaper || (tree.holder reaper).any fun other =>
    other ≠ number && (process.level.isSome || tree.processes[other]?.all (·.level.isNone))

def exit (number reaper : Nat) (tree : SandboxTree) : Option SandboxTree :=
  match tree.processes[number]? with
  | some process =>
      if process.alive && tree.adopts number reaper process then
        some { tree with processes := tree.processes.mapIdx (departed number process.pid reaper) }
      else none
  | none => none

def step (tree : SandboxTree) : TreeEvent → Option SandboxTree
  | .forks starter pid => tree.fork starter pid
  | .exits number reaper => tree.exit number reaper
  | .halts number => some { tree with processes := tree.processes.modify number TreeProcess.halt }
  | .begins =>
      match tree.stage with
      | .starting =>
          if tree.parentOf tree.root = some tree.runner then
            match tree.signal tree.root .stop with
            | some tree => some { tree with stage := .waiting 0 [tree.root], found := [tree.root] }
            | none => some { tree with stage := .finished }
          else some { tree with stage := .finished }
      | _ => none
  | .waits =>
      match tree.stage with
      | .waiting round _ => some { tree with stage := .reading round tree.present [] [] [] }
      | _ => none
  | .lists pid =>
      match tree.stage with
      | .reading round due listed names entries =>
          if pid ∉ listed ∧ (tree.holder pid).isSome then
            some { tree with
              stage := .reading round due (listed ++ [pid]) (names ++ [pid]) entries }
          else none
      | _ => none
  | .reads =>
      match tree.stage with
      | .reading round due listed (pid :: names) entries =>
          let entry := (tree.parentOf pid).map fun parent => (pid, parent)
          some { tree with stage := .reading round due listed names (entries ++ entry.toList) }
      | _ => none
  | .ends =>
      match tree.stage with
      | .reading round due listed [] entries =>
          if due.all fun number => tree.processes[number]?.all fun process =>
              !process.alive || process.pid ∈ listed then
            let fresh := entries.filter fun entry => entry.2 ∈ tree.found && entry.1 ∉ tree.found
            some { tree with stage := .stopping round (fresh.map Prod.fst) [] }
          else none
      | _ => none
  | .stops =>
      match tree.stage with
      | .stopping round (pid :: left) stopped =>
          match tree.signal pid .stop with
          | some tree => some { tree with stage := .stopping round left (stopped ++ [pid]) }
          | none => some { tree with stage := .stopping round left stopped }
      | _ => none
  | .proceeds =>
      match tree.stage with
      | .stopping round [] stopped =>
          if stopped = [] then some { tree with stage := .killing tree.found.tail.reverse }
          else
            let found := tree.found ++ stopped
            some { tree with
              found := found
              stage := if round + 1 < maxDepth then .waiting (round + 1) stopped
                else .killing found.tail.reverse }
      | _ => none
  | .kills =>
      match tree.stage with
      | .killing (pid :: left) =>
          match tree.signal pid .kill with
          | some tree => some { tree with stage := .killing left }
          | none => some { tree with stage := .killing left }
      | .killing [] => some { tree with stage := .finished }
      | _ => none

end SandboxTree

/-- What is taken for granted: no process of the tree exits before SIGKILL was sent to it, the tree has
no more levels than the walk goes down, and a wait ends once its processes have stopped. -/
def Assumed (tree : SandboxTree) : TreeEvent → Prop
  | .forks starter _ => tree.processes[starter]?.all (fun process =>
      process.level.all fun level => decide (level < maxDepth)) = true
  | .exits number _ => tree.processes[number]?.all (fun process =>
      process.level.isNone || process.killed) = true
  | .waits => tree.processes.all (fun process =>
      process.pid ∉ tree.stage.awaited || !process.alive || process.stopped) = true
  | _ => True

instance (tree : SandboxTree) (event : TreeEvent) : Decidable (Assumed tree event) := by
  cases event <;> unfold Assumed <;> infer_instance

/-- The processes of a table by number. -/
@[grind] def pidOf (processes : List TreeProcess) (number : Nat) : Option Nat :=
  processes[number]?.map TreeProcess.pid

@[grind] def parentAt (processes : List TreeProcess) (number : Nat) : Option Nat :=
  processes[number]?.map TreeProcess.parent

@[grind] def starterOf (processes : List TreeProcess) (number : Nat) : Option Nat :=
  processes[number]?.bind TreeProcess.starter

@[grind] def levelOf (processes : List TreeProcess) (number : Nat) : Option Nat :=
  processes[number]?.bind TreeProcess.level

@[grind] def isAlive (processes : List TreeProcess) (number : Nat) : Bool :=
  processes[number]?.any TreeProcess.alive

@[grind] def isStopped (processes : List TreeProcess) (number : Nat) : Bool :=
  processes[number]?.any TreeProcess.stopped

@[grind] def isKilled (processes : List TreeProcess) (number : Nat) : Bool :=
  processes[number]?.any TreeProcess.killed

/-- The processes that were started below a root, by the levels they have. -/
structure Grown (runner root : Nat) (processes : List TreeProcess) : Prop where
  distinct : ∀ number other, isAlive processes number = true → isAlive processes other = true →
    pidOf processes number = pidOf processes other → number = other
  valid : ∀ number pid, pidOf processes number = some pid → pid ≠ runner ∧ 0 < pid ∧ pid < 2 ^ 31
  root : ∃ number, pidOf processes number = some root ∧ levelOf processes number = some 0
  rootOnly : ∀ number other, levelOf processes number = some 0 → levelOf processes other = some 0 →
    number = other
  known : ∀ number starter, starterOf processes number = some starter → starter < processes.length
  started : ∀ number starter, starterOf processes number = some starter →
    levelOf processes number = (levelOf processes starter).map (· + 1)
  starters : ∀ number level, levelOf processes number = some (level + 1) →
    ∃ starter, starterOf processes number = some starter
  living : ∀ number level, levelOf processes number = some level → isKilled processes number = false →
    isAlive processes number = true
  shallow : ∀ number level, levelOf processes number = some level → level ≤ maxDepth

/-- No process was sent SIGKILL yet: a process of the tree has its starter as its parent, no other
process has one of the tree, and a parent is there. -/
structure Unkilled (runner : Nat) (processes : List TreeProcess) : Prop where
  unkilled : ∀ number, isKilled processes number = false
  parents : ∀ number starter level, starterOf processes number = some starter →
    levelOf processes starter = some level → parentAt processes number = pidOf processes starter
  rootParent : ∀ number, levelOf processes number = some 0 → parentAt processes number = some runner
  outside : ∀ number other level, isAlive processes number = true → levelOf processes number = none →
    levelOf processes other = some level → parentAt processes number ≠ pidOf processes other
  parented : ∀ number parent, isAlive processes number = true → parentAt processes number = some parent →
    parent ≠ runner → 0 < parent → parent < 2 ^ 31 →
    ∃ other, isAlive processes other = true ∧ pidOf processes other = some parent

/-- Any tree below a root that `/proc` shows as the Runner's child. -/
def treeSystem : System SandboxTree TreeEvent where
  initial tree := Grown tree.runner tree.root tree.processes ∧ Unkilled tree.runner tree.processes ∧
    tree.stage = .starting ∧ tree.found = [] ∧ tree.sent = []
  step before event after := before.step event = some after

end CodeSpace.Runner
