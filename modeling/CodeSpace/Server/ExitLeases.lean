import CodeSpace.Server.Reconcile
import CodeSpace.Store.ProcessHolds

namespace CodeSpace.Server

open Store Transition

/-! The workspace leases of processes, from the reservation of the workspace to the exit: the clients of
the store, exits delivered at any time, and reconciliations that hold workspaces again. -/

/-- The leases with the clients of the store. For the assumptions on the Runner's reports it records whose
exit was delivered, and which of them before the reconciliation in progress began. -/
structure LeaseRoom where
  leases : Leases := {}
  clients : List Client := []
  delivered : List String := []
  earlier : List String := []

inductive LeaseTurn
  /-- A step of a client of the store; `release_process` of a gateway without records is an exit. -/
  | client (event : LeaseEvent)
  /-- `Leases::release`. -/
  | exits (processId : String)
  | noteExits
  | restore (workspaceId processId : String)
  | forgetExits
deriving DecidableEq

namespace LeaseRoom

def world (room : LeaseRoom) : LeaseWorld :=
  ⟨room.leases.locks, room.clients⟩

def step (room : LeaseRoom) : LeaseTurn → Option LeaseRoom
  | .client event => (room.world.step event).map fun next =>
      { room with
        leases := { room.leases with locks := next.locks }
        clients := next.clients
        delivered := match event with
          | .releaseProcess processId => processId :: room.delivered
          | _ => room.delivered }
  | .exits processId => some
      { room with
        leases := room.leases.release processId
        clients := room.world.revoke fun holder => holder.processId? = some processId
        delivered := processId :: room.delivered }
  | .noteExits =>
      if room.leases.exited.isNone then
        some { room with leases := room.leases.noteExits, earlier := room.delivered }
      else none
  | .restore workspaceId processId =>
      if room.leases.exited.isSome then
        some { room with leases := (room.leases.restore workspaceId processId).2 }
      else none
  | .forgetExits =>
      if room.leases.exited.isSome then some { room with leases := room.leases.forgetExits } else none

/-- No reservation of the process is waiting for its workspace. -/
def Unqueued (room : LeaseRoom) (processId : String) : Prop :=
  ∀ {resource}, ∀ waiter ∈ room.leases.locks.queue resource, waiter.owner.processId? ≠ some processId

/-- What is known of exits. A process ID is not used again once its exit was delivered; an exit comes
after the start of the process, which waits for the reservation; and whoever the Runner reports running
to a reconciliation had no exit delivered before the reconciliation began. -/
def Plausible (room : LeaseRoom) : LeaseTurn → Prop
  | .client (.acquire wanted) => ∀ processId ∈ room.delivered, wanted.owner.processId? ≠ some processId
  | .client (.releaseProcess processId) | .exits processId => room.Unqueued processId
  | .restore _ processId => processId ∉ room.earlier
  | _ => True

/-- Exits are delivered through the leases while a reconciliation is in progress. -/
def Notes (room : LeaseRoom) : LeaseTurn → Prop
  | .client (.releaseProcess _) => room.leases.exited = none
  | _ => True

end LeaseRoom

def leaseRooms : System LeaseRoom LeaseTurn where
  initial room := room = {}
  step before turn after := before.step turn = some after

variable {room before after : LeaseRoom} {turn : LeaseTurn} {processId : String} {event : LeaseEvent}
  {turns : List LeaseTurn}

/-! Whoever is free of holds stays so. -/

theorem clientStep_free {world next : LeaseWorld} (free : world.locks.Free processId)
    (others : ∀ {wanted}, event = .acquire wanted → wanted.owner.processId? ≠ some processId)
    (stepped : world.step event = some next) : next.locks.Free processId := by
  cases event with
  | acquire wanted =>
      simp only [LeaseWorld.step] at stepped
      split at stepped
      · cases stepped
        have mine := others rfl
        cases wanted <;> exact free.acquire mine
      · contradiction
  | tryAcquire wanted =>
      cases wanted with
      | write workspaceId =>
          cases stepped
          exact free.tryExclusiveWrite workspaceId
      | lock =>
          cases stepped
          exact free.tryLock
      | shellBusy => contradiction
  | poll =>
      obtain ⟨client, _, polled⟩ := Option.bind_eq_some_iff.mp stepped
      simp only [LeaseWorld.poll] at polled
      split at polled
      · split at polled
        · cases polled
          exact free.dropReceiver _
        · cases polled
          exact free.dropReceiver _
        · split at polled
          · contradiction
          · cases polled
            exact free.dropReceiver _
      · contradiction
  | dropFuture =>
      obtain ⟨client, _, dropped⟩ := Option.bind_eq_some_iff.mp stepped
      simp only [LeaseWorld.dropFuture] at dropped
      split at dropped
      · cases dropped
        exact free.dropTicket
      · contradiction
  | dropGuard =>
      obtain ⟨client, _, dropped⟩ := Option.bind_eq_some_iff.mp stepped
      simp only [LeaseWorld.dropGuard] at dropped
      split at dropped
      · cases dropped
        exact free.releaseWrite _
      · cases dropped
        exact free.unlock _
      · cases dropped
        exact free.releaseMatching _
      · cases dropped
        exact free
      · contradiction
  | armDispatch =>
      obtain ⟨client, _, armed⟩ := Option.bind_eq_some_iff.mp stepped
      simp only [LeaseWorld.armDispatch] at armed
      split at armed
      · cases armed
        exact free
      · contradiction
  | confirm =>
      obtain ⟨client, _, confirmed⟩ := Option.bind_eq_some_iff.mp stepped
      simp only [LeaseWorld.confirm] at confirmed
      split at confirmed
      · cases confirmed
        exact free.confirmProcess _
      · contradiction
  | abort =>
      obtain ⟨_, _, aborted⟩ := Option.bind_eq_some_iff.mp stepped
      simp only [LeaseWorld.abort] at aborted
      split at aborted
      · cases aborted
        exact free.releaseMatching _
      · contradiction
  | releaseProcess | releaseAllProcesses =>
      cases stepped
      exact free.releaseMatching _

/-- No hold is left of a process whose exit was delivered, and a reconciliation in progress knows of
every exit delivered since it began. -/
structure LeaseRoom.Settled (room : LeaseRoom) : Prop where
  free : ∀ processId ∈ room.delivered, room.leases.locks.Free processId
  noted : ∀ {exited}, room.leases.exited = some exited →
    ∀ processId ∈ room.delivered, processId ∈ room.earlier ∨ processId ∈ exited

/-- The step that delivers an exit frees the process and nobody else loses what it lacks. -/
theorem delivered_free (free : ∀ other ∈ room.delivered, room.leases.locks.Free other)
    (unqueued : room.Unqueued processId) :
    ∀ other ∈ processId :: room.delivered, (room.leases.locks.releaseProcess processId).Free other := by
  intro other member
  rcases List.mem_cons.mp member with rfl | old
  · exact .releaseProcess unqueued
  · exact (free other old).releaseMatching _

namespace LeaseRoom.Settled

theorem client (settled : before.Settled) (credible : before.Plausible (.client event))
    (notes : before.Notes (.client event)) (stepped : before.step (.client event) = some after) :
    after.Settled := by
  obtain ⟨_, moved, rfl⟩ := Option.map_eq_some_iff.mp stepped
  cases event with
  | releaseProcess =>
      cases moved
      refine ⟨delivered_free settled.free credible, fun noted => ?_⟩
      rw [show before.leases.exited = none from notes] at noted
      contradiction
  | acquire =>
      refine ⟨fun processId member => ?_, settled.noted⟩
      refine clientStep_free (settled.free processId member) (fun same => ?_) moved
      cases same
      exact credible processId member
  | _ =>
      refine ⟨fun processId member => ?_, settled.noted⟩
      exact clientStep_free (settled.free processId member) (fun same => by contradiction) moved

theorem step (settled : before.Settled) (credible : before.Plausible turn) (notes : before.Notes turn)
    (stepped : before.step turn = some after) : after.Settled := by
  cases turn with
  | client => exact settled.client credible notes stepped
  | exits =>
      cases stepped
      refine ⟨delivered_free settled.free credible, fun {exited} noted other member => ?_⟩
      obtain ⟨_, wasNoted, rfl⟩ := Option.map_eq_some_iff.mp noted
      rcases List.mem_cons.mp member with rfl | earlier
      · exact .inr List.mem_cons_self
      · exact (settled.noted wasNoted other earlier).imp_right (List.mem_cons_of_mem _)
  | noteExits =>
      simp only [LeaseRoom.step] at stepped
      split at stepped
      · cases stepped
        exact ⟨settled.free, fun _ _ member => .inl member⟩
      · contradiction
  | restore workspaceId processId =>
      simp only [LeaseRoom.step] at stepped
      split at stepped
      next inPass =>
        cases stepped
        obtain ⟨_, isNoted⟩ := Option.isSome_iff_exists.mp inPass
        by_cases gone : before.leases.noted processId = true
        · simp only [Leases.restore, if_pos gone]
          exact settled
        · simp only [Leases.restore, if_neg gone]
          refine ⟨fun other member => (settled.free other member).holdProcess workspaceId ?_, settled.noted⟩
          rintro rfl
          rcases settled.noted isNoted processId member with earlier | noted
          · exact credible earlier
          · exact gone (by simpa [Leases.noted, isNoted] using noted)
      · contradiction
  | forgetExits =>
      simp only [LeaseRoom.step] at stepped
      split at stepped
      · cases stepped
        exact ⟨settled.free, by simp [Leases.forgetExits]⟩
      · contradiction

end LeaseRoom.Settled

/-! What the steps of a process leave to others. -/

/-- The exits, the ends of reservations and the reconciliation, with the process each is about. -/
inductive LeaseTurn.Concerns (room : LeaseRoom) : LeaseTurn → Option String → Prop
  | released (processId : String) : Concerns room (.client (.releaseProcess processId)) (some processId)
  | exits (processId : String) : Concerns room (.exits processId) (some processId)
  | confirmed {index : Nat} {client : Client} {workspaceId processId : String}
      (stored : room.clients[index]? = some client)
      (wanted : client.wanted = .shellBusy workspaceId processId) :
      Concerns room (.client (.confirm index)) (some processId)
  | aborted {index : Nat} {client : Client} {workspaceId processId : String}
      (stored : room.clients[index]? = some client)
      (wanted : client.wanted = .shellBusy workspaceId processId) :
      Concerns room (.client (.abort index)) (some processId)
  | dropped {index : Nat} {client : Client} {workspaceId processId : String}
      (stored : room.clients[index]? = some client)
      (wanted : client.wanted = .shellBusy workspaceId processId) :
      Concerns room (.client (.dropGuard index)) (some processId)
  | noteExits : Concerns room .noteExits none
  | restore (workspaceId processId : String) : Concerns room (.restore workspaceId processId) (some processId)
  | forgetExits : Concerns room .forgetExits none

theorem spares_or_same {concerned : Option String} (concerns : turn.Concerns before concerned)
    (stepped : before.step turn = some after) :
    after.leases.locks = before.leases.locks ∨ ∃ processId, concerned = some processId ∧
        ResourceSerializer.Spares processId before.leases.locks after.leases.locks := by
  have own {index : Nat} {client : Client} {event : LeaseEvent} {act : Client → Option LeaseWorld}
      (stored : before.clients[index]? = some client)
      (acts : before.world.step event = before.clients[index]?.bind act)
      (moved : before.step (.client event) = some after) :
      ∃ next, act client = some next ∧ after.leases.locks = next.locks := by
    obtain ⟨next, acted, rfl⟩ := Option.map_eq_some_iff.mp moved
    rw [acts, stored, Option.bind_some] at acted
    exact ⟨next, acted, rfl⟩
  cases concerns with
  | released processId | exits processId =>
      cases stepped
      exact .inr ⟨processId, rfl, .releaseProcess⟩
  | @confirmed index client workspaceId processId stored wanted =>
      obtain ⟨next, acted, same⟩ := own stored rfl stepped
      simp only [LeaseWorld.confirm, wanted] at acted
      split at acted
      next isShell =>
        cases acted
        cases isShell
        exact .inr ⟨processId, rfl, same ▸ .confirmProcess⟩
      · contradiction
  | @aborted index client workspaceId processId stored wanted =>
      obtain ⟨next, acted, same⟩ := own stored rfl stepped
      simp only [LeaseWorld.abort, wanted] at acted
      split at acted
      next isShell =>
        cases acted
        cases isShell
        exact .inr ⟨processId, rfl, same ▸ .releaseProcess⟩
      · contradiction
  | @dropped index client workspaceId processId stored wanted =>
      obtain ⟨next, acted, same⟩ := own stored rfl stepped
      simp only [LeaseWorld.dropGuard, wanted] at acted
      split at acted
      · contradiction
      · contradiction
      next isShell =>
        cases acted
        cases isShell
        exact .inr ⟨processId, rfl, same ▸ .releaseProcess⟩
      · cases acted
        exact .inl same
      · contradiction
  | noteExits | forgetExits =>
      simp only [LeaseRoom.step] at stepped
      split at stepped
      · cases stepped
        exact .inl rfl
      · contradiction
  | restore _ processId =>
      simp only [LeaseRoom.step] at stepped
      split at stepped
      · cases stepped
        by_cases gone : before.leases.noted processId = true
        · exact .inl (by simp only [Leases.restore, if_pos gone])
        · simp only [Leases.restore, if_neg gone]
          exact .inr ⟨processId, rfl, .holdProcess⟩
      · contradiction

/-- Exits are plausible and are noted while a reconciliation is in progress. -/
def notedLeases : System LeaseRoom LeaseTurn :=
  leaseRooms.restrict fun room turn => room.Plausible turn ∧ room.Notes turn

theorem LeaseRoom.Settled.run (settled : before.Settled)
    (run : notedLeases.Run before turns after) : after.Settled :=
  run.keeps LeaseRoom.Settled (fun stepped settled => settled.step stepped.1.1 stepped.1.2 stepped.2) settled

theorem delivered_of_run (exited : processId ∈ before.delivered)
    (run : notedLeases.Run before turns after) : processId ∈ after.delivered := by
  refine run.keeps (fun room => processId ∈ room.delivered) (fun {room next turn} stepped old => ?_) exited
  have moved := stepped.2
  cases turn with
  | client event =>
      obtain ⟨_, _, rfl⟩ := Option.map_eq_some_iff.mp moved
      cases event with
      | releaseProcess => exact List.mem_cons_of_mem _ old
      | _ => exact old
  | exits =>
      cases moved
      exact List.mem_cons_of_mem _ old
  | noteExits | restore | forgetExits =>
      simp only [leaseRooms, LeaseRoom.step] at moved
      split at moved
      · cases moved
        exact old
      · contradiction

/-- Once the exit of a process was delivered nothing is held for it, now or later; and the steps of one
process take no hold from another or from a request. -/
theorem exited_process_holds_nothing {room later : LeaseRoom} {turns : List LeaseTurn} {processId : String}
    (reachable : notedLeases.Reachable room) (exited : processId ∈ room.delivered)
    (run : notedLeases.Run room turns later) :
    (∀ resource holder, later.leases.locks.exclusive.lookup resource = some holder →
      holder.processId? ≠ some processId) ∧
    ∀ turn next concerned, turn.Concerns later concerned → later.step turn = some next →
      (∀ resource holder, later.leases.locks.exclusive.lookup resource = some holder →
        (holder.processId? = none ∨ holder.processId? ≠ concerned) →
        next.leases.locks.exclusive.lookup resource = some holder) ∧
      ∀ resource, later.leases.locks.sharedCount resource ≤ next.leases.locks.sharedCount resource := by
  obtain ⟨_, _, isInitial, reached⟩ := reachable
  have settled : later.Settled := by
    refine LeaseRoom.Settled.run ?_ (reached.append run)
    cases isInitial
    exact ⟨nofun, nofun⟩
  refine ⟨fun resource holder found => ?_, fun turn next concerned concerns stepped => ?_⟩
  · exact (settled.free processId (delivered_of_run exited run)).held found
  · rcases spares_or_same concerns stepped with same | ⟨other, rfl, spares⟩
    · rw [same]
      exact ⟨fun _ _ found _ => found, fun _ => Nat.le_refl _⟩
    · refine ⟨fun resource holder found others => spares.held found ?_, spares.shared⟩
      rcases others with request | apart
      · simp [request]
      · exact apart

theorem unqueued_of_idle (idle : room.leases.locks.waiters = ∅) : room.Unqueued processId := by
  intro resource waiter member
  simp [ResourceSerializer.queue, idle] at member

/-- An execution whose workspace is reserved and whose exit comes before its spawn is confirmed. -/
theorem early_exit_frees_the_workspace : ∃ room later, notedLeases.Reachable room ∧ "p" ∈ room.delivered ∧
      room.step (.client (.confirm 0)) = some later ∧
      ∀ resource holder, later.leases.locks.exclusive.lookup resource = some holder →
        holder.processId? ≠ some "p" := by
  let reserved : LeaseRoom :=
    { leases := { locks := (({} : ResourceSerializer).acquireShellBusy "w" "p").2 }
      clients := [{ wanted := .shellBusy "w" "p", stage := .reserved .preDispatch }] }
  let exited : LeaseRoom :=
    { leases := reserved.leases.release "p"
      clients := reserved.world.revoke fun holder => holder.processId? = some "p"
      delivered := ["p"] }
  have reachable : notedLeases.Reachable exited := by
    have reserves : notedLeases.step {} (.client (.acquire (.shellBusy "w" "p"))) reserved :=
      ⟨⟨nofun, trivial⟩, rfl⟩
    have exits : notedLeases.step reserved (.exits "p") exited := ⟨⟨unqueued_of_idle rfl, trivial⟩, rfl⟩
    exact ⟨{}, _, rfl, .cons reserves (.cons exits (.refl _))⟩
  obtain ⟨later, confirms⟩ : ∃ later, exited.step (.client (.confirm 0)) = some later := ⟨_, rfl⟩
  have run : notedLeases.Run exited [.client (.confirm 0)] later :=
    .cons ⟨⟨trivial, trivial⟩, confirms⟩ (.refl _)
  exact ⟨exited, later, reachable, List.mem_cons_self, confirms,
    (exited_process_holds_nothing reachable List.mem_cons_self run).1⟩

/-- An exit that is not noted: the reconciliation in progress was told that the process runs, and holds
the workspace for it after its exit was delivered. -/
theorem unnoted_exit_is_held_again :
    ∃ room, (leaseRooms.restrict LeaseRoom.Plausible).Reachable room ∧ "p" ∈ room.delivered ∧
      room.clients = [] ∧ room.leases.exited = none ∧
      room.leases.locks.exclusive.lookup (.workspace "w") = some (.process "p") := by
  let noting : LeaseRoom := { leases := { exited := some [] } }
  let exited : LeaseRoom :=
    { leases := { locks := ({} : ResourceSerializer).releaseProcess "p", exited := some [] }
      delivered := ["p"] }
  let held : LeaseRoom := { exited with leases := (exited.leases.restore "w" "p").2 }
  refine ⟨{ held with leases := held.leases.forgetExits }, ⟨{}, [.noteExits,
    .client (.releaseProcess "p"), .restore "w" "p", .forgetExits], rfl, ?_⟩, List.mem_cons_self, rfl, rfl,
      ?_⟩
  · have notes : (leaseRooms.restrict LeaseRoom.Plausible).step {} .noteExits noting := ⟨trivial, rfl⟩
    have exits : (leaseRooms.restrict LeaseRoom.Plausible).step noting
        (.client (.releaseProcess "p")) exited := ⟨unqueued_of_idle rfl, rfl⟩
    have restores : (leaseRooms.restrict LeaseRoom.Plausible).step exited (.restore "w" "p") held :=
      ⟨by simp [LeaseRoom.Plausible, exited], rfl⟩
    exact .cons notes (.cons exits (.cons restores (.cons ⟨trivial, rfl⟩ (.refl _))))
  · rfl

end CodeSpace.Server
