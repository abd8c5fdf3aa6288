import CodeSpace.Server.Pass
import CodeSpace.Transition.Run

namespace CodeSpace.Server

open Data Domain Store Transition

/-! The gate of `crates/server/src/recovery.rs` and the tasks that share it: `run`, which takes account of
each Claim and reconciles it, and the calls of `admit`, which may take account of a Claim themselves. A
step is what one of them does between two locks of the gate; what a reconciliation decides is left open. -/

/-- `take_account`: it looks at the gate, reads the records, and looks at the gate again. -/
inductive Account
  | checks
  | reads
  | sets (records : Except String (List ProcessRecord))

/-- `pass`, with `reconcile` up to what it tells the Runner. -/
inductive PassSection
  | checks
  | reads
  | fails (reason : String)
  | reconciles
  | closes (bars : Bars)

/-- `Recovery::start`, and then `run`. -/
inductive Loop
  | starts (claim : RunnerClaim) (stage : Account)
  | waits (claim : Option RunnerClaim)
  | accounts (claim : RunnerClaim) (stage : Account)
  | passes (claim : RunnerClaim) (stage : PassSection)

inductive AdmissionStage
  | asks
  | finds
  | accounts (claim : RunnerClaim) (stage : Account)
  | decides

structure Admission where
  workspaceId : String
  epoch : Nat
  stage : AdmissionStage := .asks

inductive GateReport
  | quiet
  | read (epoch : Nat) (succeeded : Bool)
  | accounted (claim : RunnerClaim) (records : Except String (List ProcessRecord))
  | failed (epoch : Nat) (reason : String)
  | told (epoch : Nat) (workspaceIds : List String) (acknowledged : Bool)
  | completed (epoch : Nat) (bars : Bars)
  | admitted (workspaceId : String) (epoch : Nat) (answer : Except ErrorBody Unit)

/-- The answers in a step: the records, what a reconciliation decided, and the Runner's to `Reconciled`. -/
structure GateAnswers where
  records : Except String (List ProcessRecord) := .ok []
  bars : Bars := ∅
  refusal : Option ErrorBody := none

/-- What a step of a task leaves: the gate, and what remains of the task. -/
structure GateStep (Stage : Type) where
  report : GateReport := .quiet
  gate : Gate
  stage : Stage

def succeeded {Value : Type} : Except String Value → Bool
  | .ok _ => true
  | .error _ => false

def Account.advance (gate : Gate) (claim : RunnerClaim) (answers : GateAnswers) :
    Account → GateStep (Option Account)
  | .checks =>
      if gate.passed claim.epoch then { gate := gate, stage := none }
      else { gate := gate, stage := some .reads }
  | .reads =>
      { report := .read claim.epoch (succeeded answers.records), gate := gate
        stage := some (.sets answers.records) }
  | .sets records =>
      if gate.passed claim.epoch then { gate := gate, stage := none }
      else
        { report := .accounted claim records, gate := gate.takeAccount claim records, stage := none }

def PassSection.advance (link : Option RunnerClaim) (gate : Gate) (claim : RunnerClaim)
    (answers : GateAnswers) : PassSection → GateStep (Option PassSection)
  | .checks =>
      { gate := gate
        stage := if link.map RunnerClaim.epoch ≠ some claim.epoch then none else some .reads }
  | .reads =>
      { report := .read claim.epoch (succeeded answers.records), gate := gate
        stage := match answers.records with
          | .error reason => some (.fails reason)
          | .ok _ => some .reconciles }
  | .fails reason =>
      { report := .failed claim.epoch reason, gate := gate.failPass claim.epoch reason, stage := none }
  | .reconciles =>
      let told := reconciledWorkspaces claim answers.bars
      { report := .told claim.epoch told answers.refusal.isNone, gate := gate
        stage := some (.closes (Pass.barUntold answers.bars told answers.refusal)) }
  | .closes bars =>
      { report := .completed claim.epoch bars, gate := gate.closePass claim.epoch bars, stage := none }

def Loop.advance (link : Option RunnerClaim) (gate : Gate) (answers : GateAnswers) : Loop → GateStep Loop
  | .starts claim stage =>
      let step := stage.advance gate claim answers
      { step with stage := step.stage.elim (.waits none) (.starts claim) }
  | .waits claim => { gate := gate, stage := .waits claim }
  | .accounts claim stage =>
      let step := stage.advance gate claim answers
      { step with stage := step.stage.elim (.passes claim .checks) (.accounts claim) }
  | .passes claim stage =>
      let step := stage.advance link gate claim answers
      { step with stage := step.stage.elim (.waits (some claim)) (.passes claim) }

def Admission.advance (link : Option RunnerClaim) (gate : Gate) (answers : GateAnswers)
    (admission : Admission) : GateStep (Option Admission) :=
  match admission.stage with
  | .asks =>
      { gate := gate
        stage := some { admission with
          stage := if gate.claimed.all (· < admission.epoch) then .finds else .decides } }
  | .finds =>
      { gate := gate
        stage := some { admission with
          stage := match link.filter (fun claim => claim.epoch = admission.epoch) with
            | some claim => .accounts claim .checks
            | none => .decides } }
  | .accounts claim stage =>
      let step := stage.advance gate claim answers
      { step with
        stage := some { admission with stage := step.stage.elim .decides (.accounts claim) } }
  | .decides =>
      { report := .admitted admission.workspaceId admission.epoch
          (gate.admitWork admission.workspaceId (some admission.epoch))
        gate := gate, stage := none }

/-- The gateway's Claims, the latest first, the one that its connection was claimed with, and the tasks. -/
structure Recovery where
  claims : List RunnerClaim
  link : Option RunnerClaim
  gate : Gate := {}
  loop : Loop
  admissions : Assoc Nat Admission := ∅

inductive GateEvent
  | claims (claim : RunnerClaim)
  | disconnects
  | awakes (claim : Option RunnerClaim)
  | proceeds (answers : GateAnswers)
  | admits (index : Nat) (workspaceId : String) (epoch : Nat)
  | continues (index : Nat) (answers : GateAnswers)

namespace Recovery

/-- `run` goes on with a later Claim, or once more with the one it has. -/
def awake (state : Recovery) (claim : Option RunnerClaim) : Option RunnerClaim :=
  match state.loop with
  | .waits current =>
      match claim with
      | some claim =>
          if claim ∈ state.claims && current.all (·.epoch < claim.epoch) then some claim else none
      | none => current
  | _ => none

def isStarting (state : Recovery) : Bool :=
  match state.loop with
  | .starts .. => true
  | _ => false

/-- The epoch of a Claim is above those of the Claims before it. -/
def step (state : Recovery) : GateEvent → Option (GateReport × Recovery)
  | .claims claim =>
      if state.claims.all (·.epoch < claim.epoch) then
        some (.quiet, { state with claims := claim :: state.claims, link := some claim })
      else none
  | .disconnects => some (.quiet, { state with link := none })
  | .awakes claim =>
      (state.awake claim).map fun claim => (.quiet, { state with loop := .accounts claim .checks })
  | .proceeds answers =>
      let step := state.loop.advance state.link state.gate answers
      some (step.report, { state with gate := step.gate, loop := step.stage })
  | .admits index workspaceId epoch =>
      if state.isStarting || (state.admissions.lookup index).isSome then none
      else
        some (.quiet,
          { state with
            admissions := state.admissions.insert index
              { workspaceId := workspaceId, epoch := epoch } })
  | .continues index answers =>
      (state.admissions.lookup index).map fun admission =>
        let step := admission.advance state.link state.gate answers
        (step.report,
          { state with
            gate := step.gate
            admissions := step.stage.elim (state.admissions.erase index)
              (state.admissions.insert index) })

/-- `Recovery::start` after the gateway's first Claim. -/
def start (claim : RunnerClaim) : Recovery where
  claims := [claim]
  link := some claim
  loop := .starts claim .checks

end Recovery

def gateSystem : System Recovery GateReport where
  initial state := ∃ claim, state = .start claim
  step before report after := ∃ event, before.step event = some (report, after)

end CodeSpace.Server
