import CodeSpace.Server.RecordTurns
import CodeSpace.Store.Wake

namespace CodeSpace.Server

open Data Domain Store Transition

/-! `Recovery::reconcile` by itself, with the workspace leases that it takes and gives up
(`crates/server/src/records.rs`, `Leases`), while the exits of processes go on being reported. -/

structure Leases where
  locks : ResourceSerializer := {}
  exited : Option (List String) := none

namespace Leases

/-- The process exited or never started. -/
def release (leases : Leases) (processId : String) : Leases where
  locks := leases.locks.releaseProcess processId
  exited := leases.exited.map (processId :: ·)

def noteExits (leases : Leases) : Leases :=
  { leases with exited := some [] }

def forgetExits (leases : Leases) : Leases :=
  { leases with exited := none }

def noted (leases : Leases) (processId : String) : Bool :=
  leases.exited.any (processId ∈ ·)

/-- Answers whether the workspace is held: not when the process exited since. -/
def restore (leases : Leases) (workspaceId processId : String) : Except ErrorBody Bool × Leases :=
  if leases.noted processId then (.ok false, leases)
  else
    let held := leases.locks.holdProcess workspaceId processId
    (held.1.map fun _ => true, { leases with locks := held.2 })

def holds (leases : Leases) (workspaceId processId : String) : Prop :=
  leases.locks.exclusive.lookup (.workspace workspaceId) = some (.process processId)

end Leases

/-- What `apply` does with the workspace's lease, and why it could not be held again. -/
def Decision.lease (decision : Decision) (record : ProcessRecord) (leases : Leases) :
    Option ErrorBody × Leases :=
  match decision with
  | .running =>
      let restored := leases.restore record.workspaceId record.processId
      match restored.1 with
      | .ok _ => (none, restored.2)
      | .error error => (some error, restored.2)
  | .ended _ | .notStarted => (none, leases.release record.processId)
  | .settled _ | .pending _ | .blocked _ => (none, leases)

/-- A reconciliation under way; `attempts` is what it looked up. -/
structure Reconciliation where
  shared : Shared
  leases : Leases
  pass : Pass
  attempts : List (String × Attempt) := []

/-- A section of the reconciliation with what is answered in it; an exit, at which the lease of the
process is released; or a call on the process records: the end of an execution, a late answer to one
that was sent, the loss of a Runner, an operator's release. -/
inductive Happening
  | proceeds (env : Environment)
  | exits (processId : String)
  | records (call : ProcessCall)

namespace Reconciliation

/-- The lease of the section in which `apply` acts on a decision. -/
def lease (state : Reconciliation) : Option ErrorBody × Leases :=
  match state.pass.stage with
  | .applies ((record, decision) :: _) => decision.lease record state.leases
  | _ => (none, state.leases)

/-- The answers of a section; the lease of a process found running is the gateway's own. -/
def answers (state : Reconciliation) (env : Environment) : Environment :=
  match state.pass.stage with
  | .applies _ => { env with refusal := state.lease.1 }
  | _ => env

def proceed (config : Config) (state : Reconciliation) (env : Environment) : Reconciliation :=
  let turn := state.pass.advance config state.shared (state.answers env)
  { shared := turn.shared
    leases := state.lease.2
    pass := turn.stage
    attempts := match state.pass.stage with
      | .asks => lookUp state.shared.runner state.pass.records env.answers.attempts
      | _ => state.attempts }

def step (config : Config) (state : Reconciliation) : Happening → Reconciliation
  | .proceeds env => state.proceed config env
  | .exits processId => { state with leases := state.leases.release processId }
  | .records call =>
      { state with shared := { state.shared with processes := state.shared.processes.apply call } }

/-- The reconciliation of `records` with the Runner that was claimed, while exits are noted. -/
def start (shared : Shared) (leases : Leases) (claim : RunnerClaim) (records : List ProcessRecord) :
    Reconciliation where
  shared := shared
  leases := leases.noteExits
  pass := { claim := claim, records := records, stage := .loses (otherRunners shared.runner records) }

/-- What `reconcile` returns, by the Runner's answer to `Reconciled`. -/
def bars (state : Reconciliation) (refusal : Option ErrorBody) : Bars :=
  Pass.barUntold state.pass.bars (reconciledWorkspaces state.pass.claim state.pass.bars) refusal

end Reconciliation

def reconcileSystem (config : Config) : System Reconciliation Happening where
  initial state := ∃ shared leases claim records, state = .start shared leases claim records
  step before happening after := after = before.step config happening

section Bars

variable {bars next : Bars} {workspaceId : String}

/-- Nothing is taken out of the bars, and what an operator decides on stays so. -/
structure Bars.Grow (bars next : Bars) : Prop where
  barred {workspaceId : String} (barred : (bars.lookup workspaceId).isSome = true) :
    (next.lookup workspaceId).isSome = true
  blocked {workspaceId reason : String} (blocked : bars.lookup workspaceId = some (.blocked reason)) :
    next.lookup workspaceId = some (.blocked reason)

namespace Bars

theorem Grow.refl (bars : Bars) : Grow bars bars := ⟨id, id⟩

theorem Grow.trans {last : Bars} (left : Grow bars next) (right : Grow next last) : Grow bars last :=
  ⟨fun barred => right.barred (left.barred barred), fun blocked => right.blocked (left.blocked blocked)⟩

theorem Grow.free (grow : Grow bars next) (isOpen : next.lookup workspaceId = none) :
    bars.lookup workspaceId = none := by
  by_contra barred
  have still := grow.barred (Option.isSome_iff_ne_none.mpr barred)
  simp [isOpen] at still

theorem pend_grow (bars : Bars) (workspaceId reason : String) :
    Grow bars (bars.pend workspaceId reason) := by
  unfold pend
  split
  · exact .refl bars
  next free =>
    have apart {other : String} (barred : (bars.lookup other).isSome = true) : other ≠ workspaceId := by
      rintro rfl
      exact free barred
    refine ⟨fun barred => ?_, fun blocked => ?_⟩
    · rwa [AList.lookup_insert_ne (apart barred)]
    · rwa [AList.lookup_insert_ne (apart (by simp [blocked]))]

theorem pend_barred (bars : Bars) (workspaceId reason : String) :
    ((bars.pend workspaceId reason).lookup workspaceId).isSome = true := by
  unfold pend
  split
  next barred => exact barred
  · simp

theorem block_grow (bars : Bars) (workspaceId reason : String) :
    Grow bars (bars.block workspaceId reason) := by
  unfold block
  split
  · exact .refl bars
  next free =>
    refine ⟨fun {other} barred => ?_, fun {other _} blocked => ?_⟩
    · by_cases same : other = workspaceId
      · rw [same, AList.lookup_insert]
        rfl
      · rwa [AList.lookup_insert_ne same]
    · by_cases same : other = workspaceId
      · subst same
        exact absurd blocked (free _)
      · rwa [AList.lookup_insert_ne same]

theorem block_blocked (bars : Bars) (workspaceId reason : String) :
    ∃ why, (bars.block workspaceId reason).lookup workspaceId = some (.blocked why) := by
  unfold block
  split
  next why blocked => exact ⟨why, blocked⟩
  · exact ⟨reason, by simp⟩

theorem foldl_grow {Entry : Type} {add : Bars → Entry → Bars}
    (grows : ∀ bars entry, Grow bars (add bars entry)) (entries : List Entry) (bars : Bars) :
    Grow bars (entries.foldl add bars) := by
  induction entries generalizing bars with
  | nil => exact .refl bars
  | cons entry _ ih => exact (grows bars entry).trans (ih (add bars entry))

end Bars

theorem Bars.pendUnwritten_grow (bars : Bars) (written : Bool) (record : ProcessRecord) :
    Bars.Grow bars (bars.pendUnwritten written record) := by
  unfold Bars.pendUnwritten
  split
  · exact .refl bars
  · exact Bars.pend_grow ..

theorem Decision.bar_grow (decision : Decision) (written : Bool) (refusal : Option ErrorBody)
    (record : ProcessRecord) (bars : Bars) :
    Bars.Grow bars (decision.bar written refusal record bars) := by
  cases decision with
  | running =>
      cases refusal with
      | none => exact bars.pendUnwritten_grow written record
      | some => exact (bars.pendUnwritten_grow written record).trans (Bars.pend_grow ..)
  | ended | notStarted => exact bars.pendUnwritten_grow written record
  | settled => exact .refl bars
  | pending => exact Bars.pend_grow ..
  | blocked => exact Bars.block_grow ..

theorem barSuspect_grow (recalled : Except String (List (String × Recalled))) (bars : Bars)
    (entry : InventoryEntry) : Bars.Grow bars (barSuspect recalled bars entry) := by
  unfold barSuspect
  split
  · exact Bars.pend_grow ..
  · split
    · split
      · exact Bars.block_grow ..
      · exact .refl bars
    · exact .refl bars

theorem Pass.barUnsettled_grow (pass : Pass) (id : String) (answer : Except ErrorBody Bool) :
    Bars.Grow pass.bars (pass.barUnsettled id answer) := by
  unfold barUnsettled
  split
  · exact .refl _
  · split
    · exact Bars.pend_grow ..
    · exact .refl _

theorem Pass.barUntold_grow (bars : Bars) (workspaceIds : List String) (refusal : Option ErrorBody) :
    Bars.Grow bars (barUntold bars workspaceIds refusal) := by
  cases refusal with
  | none => exact .refl bars
  | some => exact Bars.foldl_grow (fun bars workspaceId => Bars.pend_grow ..) workspaceIds bars

theorem Pass.barUntold_barred (bars : Bars) {workspaceIds : List String}
    (listed : workspaceId ∈ workspaceIds) (error : ErrorBody) :
    ((barUntold bars workspaceIds (some error)).lookup workspaceId).isSome = true := by
  unfold barUntold
  dsimp only
  induction workspaceIds generalizing bars with
  | nil => exact absurd listed List.not_mem_nil
  | cons _ rest ih =>
      rcases List.mem_cons.mp listed with rfl | later
      · exact (Bars.foldl_grow (fun bars workspaceId => Bars.pend_grow ..) rest _).barred
          (Bars.pend_barred ..)
      · exact ih _ later

/-- A workspace of the barrier is left open only once the Runner was told that it is reconciled. -/
theorem Pass.barUntold_open {claim : RunnerClaim} {refusal : Option ErrorBody}
    (isOpen : (barUntold bars (reconciledWorkspaces claim bars) refusal).lookup workspaceId = none)
    (barrier : workspaceId ∈ claim.barrier) :
    workspaceId ∈ reconciledWorkspaces claim bars ∧ refusal = none := by
  have free : bars.lookup workspaceId = none := (barUntold_grow bars _ refusal).free isOpen
  have told : workspaceId ∈ reconciledWorkspaces claim bars :=
    List.mem_filter.mpr ⟨barrier, by simp [free]⟩
  refine ⟨told, ?_⟩
  cases refusal with
  | none => rfl
  | some error =>
      have barred := barUntold_barred bars told error
      rw [isOpen] at barred
      contradiction

/-- No section of a reconciliation takes a bar away. -/
theorem Pass.advance_bars_grow {config : Config} {shared : Shared} {env : Environment} (pass : Pass) :
    Bars.Grow pass.bars (pass.advance config shared env).stage.bars := by
  have unsettled (id : String) (answer : Except ErrorBody Bool) :
      Bars.Grow pass.bars (pass.barUnsettled id answer) := pass.barUnsettled_grow id answer
  obtain ⟨_, _, _, recalled, _, bars, stage⟩ := pass
  cases stage with
  | reads =>
      dsimp only [Pass.advance]
      split
      · exact .refl _
      · split <;> exact .refl _
  | loses runners => cases runners <;> exact .refl _
  | applies decided =>
      cases decided with
      | nil => exact .refl _
      | cons head => exact head.2.bar_grow ..
  | settles approvals =>
      cases approvals with
      | nil => exact Bars.foldl_grow (barSuspect_grow recalled) _ bars
      | cons id =>
          dsimp only [Pass.advance]
          split
          · exact unsettled id (.error _)
          · exact .refl _
  | settleMarks id =>
      dsimp only [Pass.advance]
      split
      · exact unsettled id (.error _)
      · exact .refl _
  | settleEnds id answer => exact unsettled id answer
  | _ => exact .refl _

end Bars

section Leases

variable {locks : ResourceSerializer} {leases : Leases} {workspaceId processId other : String}

theorem releaseProcess_holds {resource : Resource}
    (held : locks.exclusive.lookup resource = some (.process other)) (apart : other ≠ processId) :
    (locks.releaseProcess processId).exclusive.lookup resource = some (.process other) := by
  let wanted (holder : ExclusiveHolder) : Bool := holder.processId? = some processId
  have kept : resource ∉ locks.exclusive.keysWhere wanted := by
    rw [Assoc.mem_keysWhere]
    rintro ⟨holder, found, isWanted⟩
    cases held.symm.trans found
    exact apart (by simpa [wanted, ExclusiveHolder.processId?] using isWanted)
  have woken (released : List Resource) (outside : resource ∉ released) (state : ResourceSerializer) :
      (state.wakeAll released).exclusive.lookup resource = state.exclusive.lookup resource := by
    induction released generalizing state with
    | nil => rfl
    | cons head _ ih =>
        rw [List.mem_cons, not_or] at outside
        exact (ih outside.2 (state.wake head)).trans
          (ResourceSerializer.wake_sameAt outside.1).exclusive
  refine (woken _ kept _).trans ?_
  dsimp only [ResourceSerializer.releaseMatching]
  rw [Assoc.lookup_eraseAll, if_neg kept, held]

theorem holdProcess_holds
    (held : locks.exclusive.lookup (.workspace workspaceId) = some (.process processId))
    (target wanted : String) :
    (locks.holdProcess target wanted).2.exclusive.lookup (.workspace workspaceId) =
      some (.process processId) := by
  have granted (apart : workspaceId ≠ target) :
      ((locks.grant (.workspace target) .exclusive (.process wanted)).failWaiters (.workspace target)
        shellBusy).exclusive.lookup (.workspace workspaceId) = some (.process processId) := by
    have distinct : Resource.workspace workspaceId ≠ .workspace target := by simpa using apart
    rw [(ResourceSerializer.failWaiters_sameAt distinct).exclusive,
      (ResourceSerializer.grant_sameAt distinct).exclusive, held]
  unfold ResourceSerializer.holdProcess
  dsimp only
  split
  next found =>
    split
    · exact held
    · split
      · refine granted ?_
        rintro rfl
        cases held.symm.trans found
        contradiction
      · exact held
  next free =>
    split
    · exact held
    · refine granted ?_
      rintro rfl
      cases held.symm.trans free

theorem holdProcess_ok (ok : (locks.holdProcess workspaceId processId).1 = .ok ()) :
    (locks.holdProcess workspaceId processId).2.exclusive.lookup (.workspace workspaceId) =
      some (.process processId) := by
  have granted : ((locks.grant (.workspace workspaceId) .exclusive (.process processId)).failWaiters
      (.workspace workspaceId) shellBusy).exclusive.lookup (.workspace workspaceId) =
        some (.process processId) := by
    rw [ResourceSerializer.failWaiters_sameAt_erased.exclusive]
    simp [ResourceSerializer.grant]
  unfold ResourceSerializer.holdProcess at ok ⊢
  dsimp only at ok ⊢
  split
  next found =>
    rw [found] at ok
    dsimp only at ok
    split
    next same => rw [found, same]
    next other =>
      rw [if_neg other] at ok
      split
      · exact granted
      next foreign =>
        rw [if_neg foreign] at ok
        contradiction
  next free =>
    rw [free] at ok
    dsimp only at ok
    split
    next shared =>
      rw [if_pos shared] at ok
      contradiction
    · exact granted

namespace Leases

theorem release_noted {noted : List String} (notes : leases.exited = some noted) :
    (leases.release processId).noted processId = true := by
  simp [release, Leases.noted, notes]

theorem noted_release (was : leases.noted other = true) : (leases.release processId).noted other = true := by
  unfold Leases.noted release at *
  cases notes : leases.exited with
  | none => simp [notes] at was
  | some noted =>
      have isNoted : other ∈ noted := by simpa [notes] using was
      simp [isNoted]

theorem release_holds {noted : List String} (notes : leases.exited = some noted)
    (held : leases.holds workspaceId other) :
    (leases.release processId).holds workspaceId other ∨
      (leases.release processId).noted other = true := by
  by_cases same : other = processId
  · subst same
    exact .inr (release_noted notes)
  · exact .inl (releaseProcess_holds held same)

theorem restore_holds (held : leases.holds workspaceId processId) (target wanted : String) :
    (leases.restore target wanted).2.holds workspaceId processId := by
  unfold restore
  split
  · exact held
  · exact holdProcess_holds held target wanted

theorem restore_exited (target wanted : String) :
    (leases.restore target wanted).2.exited = leases.exited := by
  unfold restore
  split <;> rfl

theorem restore_ok {held : Bool} (ok : (leases.restore workspaceId processId).1 = .ok held) :
    (leases.restore workspaceId processId).2.holds workspaceId processId ∨
      (leases.restore workspaceId processId).2.noted processId = true := by
  unfold restore at ok ⊢
  split at ok
  next isNoted =>
    rw [if_pos isNoted]
    exact .inr isNoted
  next free =>
    rw [if_neg free]
    obtain ⟨_, granted, _⟩ := map_eq_ok.mp ok
    exact .inl (holdProcess_ok granted)

end Leases

end Leases

end CodeSpace.Server
