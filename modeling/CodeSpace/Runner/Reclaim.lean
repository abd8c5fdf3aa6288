import CodeSpace.Transition.Run

namespace CodeSpace.Runner

open Transition

/-! The connection that a gateway's client rests on: `claim_independent`, `stop_writing`, `close_link`,
`read_loop`, `start_reclaim` and `reclaim_loop` of `crates/runner/src/uds.rs`, with connections that end at
any moment. `start_reclaim` reads `leaving`, which is never taken back, before it takes the lock and is one
step: a client that leaves between the two is as one that leaves after them. -/

/-- The read loop of a connection: it reads, its stream ended, it marked the connection, it returned. -/
inductive ReaderStage
  | reads
  | breaks
  | marked
  | returned
deriving DecidableEq, Repr

inductive LinkState
  | linked (link : Nat)
  | reclaiming
  | gone
  | lost
deriving DecidableEq, Repr

inductive Attempt
  | retry
  | gone
  | lost
deriving DecidableEq, Repr

inductive ReclaimStage
  | checks
  | connects
  | claims (link : Nat)
  | givesUp (link : Nat) (attempt : Attempt)
  | publishes (link : Nat)
  | detaches (link : Nat)
  | sleeps
  | returned
deriving DecidableEq, Repr

/-- `claim_independent`. -/
inductive ClaimStage
  | connects
  | claims (link : Nat)
  | closes (link : Nat)
  | sets (link : Nat)
  | checks (link : Nat)
  | returned
  | failed
deriving DecidableEq, Repr

/-- Each connection has its read loop; `dead` are those that are not `alive`, and `closing` those that a
`close_link` has marked and not yet told `start_reclaim` of. -/
structure UdsClient where
  readers : List ReaderStage := []
  dead : List Nat := []
  state : LinkState := .gone
  reclaim : Bool := false
  leaving : Bool := false
  claim : ClaimStage := .connects
  loops : List ReclaimStage := []
  closing : List Nat := []
deriving DecidableEq, Repr

/-- What the Runner and the stream answer where an outcome is asked; a section of a read loop or of a
`close_link` has none. -/
inductive ClientEvent
  | claims (outcome : Option Attempt)
  | loops (loop : Nat) (outcome : Option Attempt)
  | reads (link : Nat)
  | stopsWriting (link : Nat)
  | closes (link : Nat)
  | closed (link : Nat)
  | leaves
deriving DecidableEq, Repr

namespace UdsClient

variable (client : UdsClient)

def kill (link : Nat) : UdsClient :=
  { client with dead := link :: client.dead }

def readTo (link : Nat) (stage : ReaderStage) : UdsClient :=
  { client with readers := client.readers.set link stage }

def startReclaim (link : Nat) : UdsClient :=
  if client.reclaim ∧ client.leaving = false ∧ client.state = .linked link then
    { client with state := .reclaiming, loops := client.loops ++ [.checks] }
  else client

def goTo (loop : Nat) (stage : ReclaimStage) : UdsClient :=
  { client with loops := client.loops.set loop stage }

def endTry (loop : Nat) : Attempt → UdsClient
  | .retry => client.goTo loop .sleeps
  | .gone => { client.goTo loop .returned with state := .gone }
  | .lost => { client.goTo loop .returned with state := .lost }

def claimTurn (outcome : Option Attempt) : Option UdsClient :=
  match client.claim, outcome with
  | .connects, none => some
      { client with
        readers := client.readers ++ [.reads]
        state := .linked client.readers.length
        claim := .claims client.readers.length }
  | .connects, some _ => some { client with claim := .failed }
  | .claims link, none => some { client with claim := .sets link }
  | .claims link, some .retry => some { client.kill link with claim := .closes link }
  | .claims link, some _ => some
      { client.kill link with leaving := true, claim := .failed, closing := client.closing ++ [link] }
  | .closes link, _ => some { client.startReclaim link with claim := .connects }
  | .sets link, _ => some { client with reclaim := true, claim := .checks link }
  | .checks link, _ =>
      some { if link ∈ client.dead then client.startReclaim link else client with claim := .returned }
  | .returned, _ | .failed, _ => none

def loopTurn (loop : Nat) (outcome : Option Attempt) : Option UdsClient :=
  match client.loops[loop]?, outcome with
  | some .checks, _ => some
      (if client.leaving then { client.goTo loop .returned with state := .gone }
      else client.goTo loop .connects)
  | some .connects, none => some
      { client.goTo loop (.claims client.readers.length) with readers := client.readers ++ [.reads] }
  | some .connects, some attempt => some (client.endTry loop attempt)
  | some (.claims link), none => some (client.goTo loop (.publishes link))
  | some (.claims link), some attempt => some ((client.kill link).goTo loop (.givesUp link attempt))
  | some (.givesUp link attempt), _ => some ((client.startReclaim link).endTry loop attempt)
  | some (.publishes link), _ => some
      (if client.leaving then { client.goTo loop (.detaches link) with state := .gone }
      else { client.goTo loop .returned with state := .linked link })
  | some (.detaches link), _ => some
      { (client.kill link).goTo loop .returned with closing := client.closing ++ [link] }
  | some .sleeps, _ => some (client.goTo loop .checks)
  | some .returned, _ | none, _ => none

/-- The next section of a connection's read loop. -/
def readerTurn (link : Nat) : Option UdsClient :=
  match client.readers[link]? with
  | some .reads => some (client.readTo link .breaks)
  | some .breaks => some ((client.kill link).readTo link .marked)
  | some .marked => some ((client.startReclaim link).readTo link .returned)
  | some .returned | none => none

def step : ClientEvent → Option UdsClient
  | .claims outcome => client.claimTurn outcome
  | .loops loop outcome => client.loopTurn loop outcome
  | .reads link => client.readerTurn link
  | .stopsWriting link => some (client.kill link)
  | .closes link => some { client.kill link with closing := client.closing ++ [link] }
  | .closed link =>
      if link ∈ client.closing then
        some { client.startReclaim link with closing := client.closing.erase link }
      else none
  | .leaves => some { client with leaving := true }

/-- No reclaim loop makes a connection the client's whose read loop has returned. -/
def publishesRead : ClientEvent → Bool
  | .loops loop _ =>
      match client.loops[loop]? with
      | some (.publishes link) => client.readers[link]? ≠ some .returned
      | _ => true
  | _ => true

end UdsClient

def clientSystem : System UdsClient ClientEvent where
  initial client := client = {}
  step before event after := before.step event = some after

def ClaimStage.isSet : ClaimStage → Bool
  | .checks _ | .returned => true
  | _ => false

/-- While `claim_independent` runs, nothing else changes the client's connection; after it, a read loop
that returns leaves the client to a reclaim loop. -/
structure Watched (client : UdsClient) : Prop where
  marked (link : Nat) : client.readers[link]? = some .marked ∨ client.readers[link]? = some .returned →
    link ∈ client.dead
  unset (unset : client.reclaim = false) : client.loops = [] ∧
    ∀ link, client.claim = .claims link ∨ client.claim = .sets link → client.state = .linked link
  setting : client.claim.isSet = client.reclaim
  rests (set : client.reclaim = true) (stays : client.leaving = false) (link : Nat)
    (linked : client.state = .linked link) (read : client.readers[link]? = some .returned) :
    client.claim = .checks link

variable {client before after : UdsClient} {event : ClientEvent} {link loop : Nat}

namespace Watched

variable {outcome : Option Attempt}

theorem startReclaim (watched : Watched client) (link : Nat) : Watched (client.startReclaim link) := by
  obtain ⟨_, _⟩ := watched
  unfold UdsClient.startReclaim
  constructor <;> grind

theorem endTry (watched : Watched client) (set : client.reclaim = true) (loop : Nat) (attempt : Attempt) :
    Watched (client.endTry loop attempt) := by
  obtain ⟨_, _⟩ := watched
  cases attempt <;> constructor <;> simp_all [UdsClient.endTry, UdsClient.goTo]

theorem claimTurn (watched : Watched before) (stepped : before.claimTurn outcome = some after) :
    Watched after := by
  obtain ⟨_, unset, _⟩ := watched
  unfold UdsClient.claimTurn UdsClient.startReclaim UdsClient.kill at stepped
  split at stepped <;> cases stepped
  all_goals constructor <;> grind [ClaimStage.isSet]

theorem readerTurn (watched : Watched before) (stepped : before.readerTurn link = some after) :
    Watched after := by
  obtain ⟨_, _⟩ := watched
  unfold UdsClient.readerTurn UdsClient.startReclaim UdsClient.kill UdsClient.readTo at stepped
  split at stepped <;> cases stepped
  all_goals constructor <;> grind

theorem loopTurn (watched : Watched before) (read : before.publishesRead (.loops loop outcome) = true)
    (stepped : before.loopTurn loop outcome = some after) : Watched after := by
  have set : before.reclaim = true := by
    by_contra unset
    simp [UdsClient.loopTurn, (watched.unset (Bool.not_eq_true _ ▸ unset)).1] at stepped
  unfold UdsClient.publishesRead at read
  unfold UdsClient.loopTurn at stepped
  split at stepped <;> cases stepped
  case h_3 => exact watched.endTry set loop _
  case h_6 => exact (watched.startReclaim _).endTry (by unfold UdsClient.startReclaim; grind) loop _
  all_goals
    obtain ⟨_, _⟩ := watched
    constructor <;> grind [UdsClient.kill, UdsClient.goTo]

theorem step (watched : Watched before) (read : before.publishesRead event = true)
    (stepped : before.step event = some after) : Watched after := by
  cases event with
  | claims => exact watched.claimTurn stepped
  | loops => exact watched.loopTurn read stepped
  | reads => exact watched.readerTurn stepped
  | closed link =>
      cases (Option.ite_none_right_eq_some.mp stepped).2
      obtain ⟨marked, unset, setting, rests⟩ := watched.startReclaim link
      exact ⟨marked, unset, setting, rests⟩
  | stopsWriting | closes | leaves =>
      cases stepped
      obtain ⟨_, _⟩ := watched
      constructor <;> grind [UdsClient.kill]

end Watched

/-- A client that has claimed its Runner and is not leaving does not rest on a connection that its read loop
has left, unless a reclaim loop made such a one its connection. -/
theorem linked_is_read
    (reachable : (clientSystem.restrict fun client event => client.publishesRead event = true).Reachable
      client)
    (claimed : client.claim = .returned) (stays : client.leaving = false)
    (linked : client.state = .linked link) :
    client.readers[link]? ≠ some .returned ∨ link ∉ client.dead := by
  have watched : Watched client := by
    refine reachable.invariant Watched (fun isInitial => ?_) fun stepped watched => ?_
    · cases isInitial
      exact ⟨by simp, by simp, rfl, by simp⟩
    · exact watched.step stepped.1 stepped.2
  left
  intro read
  cases claimed.symm.trans (watched.rests (watched.setting ▸ claimed ▸ rfl) stays link linked read)

def firstLost : List ClientEvent :=
  [.claims none, .claims none, .claims none, .claims none, .reads 0, .reads 0, .reads 0, .loops 0 none,
    .loops 0 none, .loops 0 none]

/-- The second connection is marked, and its read loop is about to start the next reclaim. -/
theorem second_is_read : ∃ client : UdsClient, client.state = .linked 1 ∧ 1 ∈ client.dead ∧
    (client.readers[1]? ≠ some .returned ∨ 1 ∉ client.dead) := by
  obtain ⟨_, client, run, claimed, stays, linked, dead⟩ := clientSystem.exists_event_run
    (fun stepped => stepped) (fun client event => client.publishesRead event = true) {}
    (firstLost ++ [.loops 0 none, .reads 1, .reads 1])
    (fun client => client.claim = .returned ∧ client.leaving = false ∧ client.state = .linked 1 ∧
      1 ∈ client.dead) (by decide +kernel)
  exact ⟨client, linked, dead, linked_is_read ⟨_, _, rfl, run⟩ claimed stays linked⟩

/-- The second connection ends between the Claim's answer and its publication: the client rests on it, with
no reclaim loop and no section left that would start one. -/
theorem reclaim_publishes_dead_link : ∃ client, clientSystem.Reachable client ∧ client.claim = .returned ∧
    client.leaving = false ∧ client.state = .linked 1 ∧ client.readers[1]? = some .returned ∧
    1 ∈ client.dead ∧ client.loops = [.returned] ∧ client.closing = [] := by
  obtain ⟨_, client, run, rests⟩ := clientSystem.exists_event_run (fun stepped => stepped)
    (fun _ _ => True) {} (firstLost ++ [.reads 1, .reads 1, .reads 1, .loops 0 none])
    (fun client => client.claim = .returned ∧ client.leaving = false ∧ client.state = .linked 1 ∧
      client.readers[1]? = some .returned ∧ 1 ∈ client.dead ∧ client.loops = [.returned] ∧
      client.closing = []) (by decide +kernel)
  exact ⟨client, ⟨_, _, rfl, run.of_restrict⟩, rests⟩

open UdsClient

/-- The loop has still to set the client's state, to the new connection or to why there is none. -/
def ReclaimStage.setsState : ReclaimStage → Bool
  | .detaches _ | .returned => false
  | _ => true

/-- Only the newest reclaim loop has still to set the client's state, which is to reclaim until then. -/
structure Sole (client : UdsClient) : Prop where
  unset (unset : client.claim.isSet = false) : client.loops = [] ∧ client.reclaim = false
  newest (loop : Nat) (stage : ReclaimStage) (found : client.loops[loop]? = some stage)
    (sets : stage.setsState = true) : client.state = .reclaiming ∧ loop + 1 = client.loops.length

theorem Sole.startReclaim (sole : Sole client) (link : Nat) : Sole (client.startReclaim link) := by
  obtain ⟨_, _⟩ := sole
  unfold UdsClient.startReclaim
  constructor <;> grind

theorem Sole.loopTurn {outcome : Option Attempt} (sole : Sole before)
    (stepped : before.loopTurn loop outcome = some after) : Sole after := by
  obtain ⟨_, newest⟩ := sole
  unfold UdsClient.loopTurn UdsClient.startReclaim at stepped
  split at stepped <;> cases stepped
  all_goals constructor <;> grind -ring -linarith
    [cases Attempt, kill, goTo, endTry, ReclaimStage.setsState]

theorem Sole.step (sole : Sole before) (stepped : before.step event = some after) : Sole after := by
  cases event with
  | loops => exact sole.loopTurn stepped
  | claims =>
      obtain ⟨_, _⟩ := sole
      simp only [UdsClient.step, claimTurn, UdsClient.startReclaim] at stepped
      split at stepped <;> cases stepped
      all_goals constructor <;> grind [kill, ClaimStage.isSet]
  | reads | closed =>
      simp only [UdsClient.step, readerTurn] at stepped
      split at stepped <;> cases stepped
      all_goals first
        | exact ⟨sole.unset, sole.newest⟩
        | exact ⟨(sole.startReclaim _).unset, (sole.startReclaim _).newest⟩
  | _ =>
      cases stepped
      exact ⟨sole.unset, sole.newest⟩

theorem Sole.of_reachable (reachable : clientSystem.Reachable client) : Sole client := by
  refine reachable.invariant Sole (fun isInitial => ?_) fun stepped sole => sole.step stepped
  cases isInitial
  exact ⟨fun _ => ⟨rfl, rfl⟩, by simp⟩

/-- A reclaim loop that has still to set the client's state is the newest of them, and the client is
reclaiming. -/
theorem reclaim_loop_is_newest (reachable : clientSystem.Reachable client) {stage : ReclaimStage}
    (found : client.loops[loop]? = some stage) (sets : stage.setsState = true) :
    client.state = .reclaiming ∧ loop + 1 = client.loops.length :=
  (Sole.of_reachable reachable).newest loop stage found sets

/-- The second loss starts a second loop, when the first has returned. -/
theorem second_reclaim_loop : ∃ client : UdsClient, client.loops[1]? = some .checks ∧
    client.state = .reclaiming ∧ 1 + 1 = client.loops.length := by
  obtain ⟨_, client, run, found⟩ := clientSystem.exists_event_run (fun stepped => stepped)
    (fun _ _ => True) {} (firstLost ++ [.loops 0 none, .reads 1, .reads 1, .reads 1])
    (fun client => client.loops[1]? = some .checks) (by decide +kernel)
  exact ⟨client, found, reclaim_loop_is_newest ⟨_, _, rfl, run.of_restrict⟩ found rfl⟩

/-- A client without a connection that leaves, or has given up claiming its Runner again. -/
structure Parted (client : UdsClient) : Prop where
  claimed : client.claim = .returned
  unlinked (link : Nat) : client.state ≠ .linked link
  leaves : client.leaving = true ∨ client.state ≠ .reclaiming

theorem Parted.step (parted : Parted before) (sole : Sole before)
    (stepped : before.step event = some after) : Parted after := by
  obtain ⟨claimed, unlinked, leaves⟩ := parted
  have still (link : Nat) : before.startReclaim link = before := if_neg (unlinked link ·.2.2)
  cases event with
  | claims => simp [UdsClient.step, claimTurn, claimed] at stepped
  | loops =>
      have newest := sole.newest
      simp only [UdsClient.step, UdsClient.loopTurn, still] at stepped
      split at stepped <;> cases stepped
      all_goals constructor <;> grind -ring -linarith
        [cases Attempt, kill, goTo, endTry, ReclaimStage.setsState]
  | _ =>
      simp only [UdsClient.step, readerTurn, still] at stepped
      constructor <;> grind [kill, readTo]

/-- Such a client never has a connection again. -/
theorem parted_client_stays_unlinked {trace : List ClientEvent}
    (reachable : clientSystem.Reachable before) (parted : Parted before)
    (run : clientSystem.Run before trace after) (link : Nat) : after.state ≠ .linked link := by
  have kept := run.keeps (fun client => Sole client ∧ Parted client)
    (fun stepped held => ⟨held.1.step stepped, held.2.step held.1 stepped⟩)
    ⟨.of_reachable reachable, parted⟩
  exact kept.2.unlinked link

/-- The client leaves after the Claim's answer: the new connection is detached. -/
theorem left_client_stays_unlinked : ∃ before after : UdsClient, before.state = .reclaiming ∧
    before.step (.loops 0 none) = some after ∧ after.state ≠ .linked 1 := by
  obtain ⟨_, client, run, claimed, state, leaving, moves⟩ := clientSystem.exists_event_run
    (fun stepped => stepped) (fun _ _ => True) {} (firstLost ++ [.leaves])
    (fun client => client.claim = .returned ∧ client.state = .reclaiming ∧ client.leaving = true ∧
      (client.step (.loops 0 none)).isSome) (by decide +kernel)
  obtain ⟨after, stepped⟩ := Option.isSome_iff_exists.mp moves
  exact ⟨client, after, state, stepped, parted_client_stays_unlinked ⟨_, _, rfl, run.of_restrict⟩
    ⟨claimed, by simp [state], .inl leaving⟩ (.cons stepped (.refl _)) 1⟩

end CodeSpace.Runner
