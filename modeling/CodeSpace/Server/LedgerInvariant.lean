import CodeSpace.Server.LedgerSteps

namespace CodeSpace.Server

open Data Domain Store

/-! What holds between the history of a gateway and its operations ledger. -/

variable {config : Config} {env : Environment} {before after gateway : Gateway} {trace : List Label}
  {label : Label} {index : Nat} {call : PatchCall} {operationId : String} {next : PatchStage}
  {epoch : Option Nat} {row : OperationRow} {params : ApplyPatchParams} {result : ApplyPatchResult}
  {error : ErrorBody}

/-- The operation was begun for this request. -/
structure BegunFor (config : Config) (params : ApplyPatchParams) (row : OperationRow) : Prop where
  key : row.operationKey = params.operationKey
  workspace : row.workspaceId = params.workspaceId
  fingerprint : row.fingerprint = config.fingerprint (.applyPatch params)

/-- The row holds the operation's last result, and is unfinished while there is none. -/
structure HoldsResult (last : Option ApplyPatchResult) (row : OperationRow) : Prop where
  result : row.resultJson = ApplyPatchResult.codec.encode (last.getD (unknownResult row.operationId))
  finished : row.finishedAt.isSome = last.isSome

theorem HoldsResult.read {last : Option ApplyPatchResult}
    (holds : HoldsResult last row) : row.result = last.getD (unknownResult row.operationId) := by
  simp [OperationRow.result, holds.result]

def KeysDistinct (operations : Operations) : Prop :=
  ∀ {id other : String} {row next : OperationRow} {key : String}, operations.find? id = some row →
    operations.find? other = some next → row.operationKey = some key →
    next.operationKey = some key → id = other

/-- What the patches that run own: each an operation of its own, which goes by an identifier that was
minted for it. -/
structure CallLedger (trace : List Label) (gateway : Gateway) : Prop where
  owned {index : Nat} {call : PatchCall} {operationId : String}
    (running : gateway.patchCall index = some call)
    (owns : call.stage.owned = some operationId) : operationId ∈ gateway.shared.minted
  sent {operationId : String} (isSent : operationId ∈ patchSends trace) :
    operationId ∈ gateway.shared.minted
  apart {index other : Nat} {call next : PatchCall} {operationId : String}
    (running : gateway.patchCall index = some call) (alsoRunning : gateway.patchCall other = some next)
    (owns : call.stage.owned = some operationId) (alsoOwns : next.stage.owned = some operationId) :
    index = other
  abandoned {index : Nat} {call : PatchCall} {operationId : String} {error : ErrorBody}
    (running : gateway.patchCall index = some call)
    (stage : call.stage = .abandons operationId error) : operationId ∈ disproved trace
  once : (patchSends trace).Nodup

structure Ledger (config : Config) (trace : List Label) (gateway : Gateway) : Prop
    extends CallLedger trace gateway where
  rows {operationId : String} {row : OperationRow}
    (stored : gateway.shared.operations.find? operationId = some row) :
    operationId ∈ gateway.shared.minted
  finished {operationId : String} {result : ApplyPatchResult}
    (last : lastResult trace operationId = some result) : operationId ∈ gateway.shared.minted
  keys : KeysDistinct gateway.shared.operations
  ready {index : Nat} {call : PatchCall} {epoch : Option Nat} {operationId : String}
    (running : gateway.patchCall index = some call) (stage : call.stage = .sends epoch operationId) :
    operationId ∉ patchSends trace ∧
      ∃ row, gateway.shared.operations.find? operationId = some row ∧ BegunFor config call.params row
  held {send : Send} {operationId : String} {params : ApplyPatchParams}
    (isSent : send ∈ sends trace) (request : send.request = .applyPatch operationId params)
    (acted : operationId ∉ disproved trace) :
    ∃ row, gateway.shared.operations.find? operationId = some row ∧ BegunFor config params row
  results {operationId : String} {row : OperationRow}
    (stored : gateway.shared.operations.find? operationId = some row) :
    HoldsResult (lastResult trace operationId) row

namespace Report

variable {report : Report}

theorem finished?_of_isPatch (silent : report.isPatch = false) : report.finished? = none := by
  cases report with
  | finished => contradiction
  | _ => rfl

theorem request_of_isPatch {send : Send} (silent : report.isPatch = false)
    (isSent : send ∈ report.send?.toList) : ∃ processId params, send.request = .exec processId params := by
  cases report with
  | sent other =>
      have same : send = other := by simpa [send?] using isSent
      subst same
      obtain ⟨_, _, request⟩ := send
      cases request with
      | applyPatch => contradiction
      | exec processId params => exact ⟨processId, params, rfl⟩
  | _ => simp [send?] at isSent

end Report

theorem patchSends_snoc (silent : label.report.isPatch = false) :
    patchSends (trace ++ [label]) = patchSends trace := by
  have none_ : label.report.send?.toList.filterMap Send.patched? = [] := by
    refine List.filterMap_eq_nil_iff.mpr fun send isSent => ?_
    obtain ⟨_, _, request⟩ := Report.request_of_isPatch silent isSent
    rw [Send.patched?, request]
  rw [patchSends, sends_snoc, List.filterMap_append, none_, List.append_nil, patchSends]

/-- The patches that run go on from those that ran before. -/
structure Inherits (before after : Gateway) (trace : List Label) : Prop where
  owned {index : Nat} {call : PatchCall} {operationId : String}
    (running : after.patchCall index = some call) (owns : call.stage.owned = some operationId) :
    ∃ old, before.patchCall index = some old ∧ old.stage.owned = some operationId
  ready {index : Nat} {call : PatchCall} {epoch : Option Nat} {operationId : String}
    (running : after.patchCall index = some call) (stage : call.stage = .sends epoch operationId) :
    before.patchCall index = some call
  abandoned {index : Nat} {call : PatchCall} {operationId : String} {error : ErrorBody}
    (running : after.patchCall index = some call)
    (stage : call.stage = .abandons operationId error) :
    before.patchCall index = some call ∨ operationId ∈ disproved trace

theorem CallLedger.inherit (ledger : CallLedger trace before)
    (minted : before.shared.minted ⊆ after.shared.minted)
    (inherits : Inherits before after (trace ++ [label]))
    (sent : patchSends (trace ++ [label]) ⊆ after.shared.minted)
    (once : (patchSends (trace ++ [label])).Nodup) : CallLedger (trace ++ [label]) after where
  owned running owns := by
    obtain ⟨old, ran, owned⟩ := inherits.owned running owns
    exact minted (ledger.owned ran owned)
  sent isSent := sent isSent
  apart running alsoRunning owns alsoOwns := by
    obtain ⟨_, ran, owned⟩ := inherits.owned running owns
    obtain ⟨_, alsoRan, alsoOwned⟩ := inherits.owned alsoRunning alsoOwns
    exact ledger.apart ran alsoRan owned alsoOwned
  abandoned running stage := by
    rcases inherits.abandoned running stage with ran | gone
    · exact disproved_snoc_of_mem (ledger.abandoned ran stage)
    · exact gone
  once := once

theorem CallLedger.keep (ledger : CallLedger trace before)
    (minted : before.shared.minted ⊆ after.shared.minted)
    (unsent : patchSends (trace ++ [label]) = patchSends trace)
    (inherits : Inherits before after (trace ++ [label])) : CallLedger (trace ++ [label]) after :=
  ledger.inherit minted inherits (fun _ isSent => minted (ledger.sent (unsent ▸ isSent)))
    (unsent ▸ ledger.once)

theorem Ledger.held_snoc (ledger : Ledger config trace before) {send : Send}
    (isSent : send ∈ sends trace) (request : send.request = .applyPatch operationId params)
    (acted : operationId ∉ disproved (trace ++ [label])) :
    ∃ row, before.shared.operations.find? operationId = some row ∧ BegunFor config params row :=
  ledger.held isSent request fun gone => acted (disproved_snoc_of_mem gone)

theorem Ledger.keep (ledger : Ledger config trace before)
    (frame : LedgerFrame before.shared after.shared) (silent : label.report.isPatch = false)
    (inherits : Inherits before after (trace ++ [label])) :
    Ledger config (trace ++ [label]) after where
  toCallLedger := ledger.toCallLedger.keep frame.minted (patchSends_snoc silent) inherits
  rows stored := frame.minted (ledger.rows (frame.operations ▸ stored))
  finished last := by
    rw [lastResult_snoc (Report.finished?_of_isPatch silent)] at last
    exact frame.minted (ledger.finished last)
  keys := by
    rw [frame.operations]
    exact ledger.keys
  ready running stage := by
    rw [frame.operations, patchSends_snoc silent]
    exact ledger.ready (inherits.ready running stage) stage
  held {send operationId params} isSent request acted := by
    rw [frame.operations]
    rw [sends_snoc] at isSent
    rcases List.mem_append.mp isSent with earlier | now
    · exact ledger.held_snoc earlier request acted
    · obtain ⟨_, _, exec⟩ := Report.request_of_isPatch silent now
      cases request.symm.trans exec
  results stored := by
    rw [lastResult_snoc (Report.finished?_of_isPatch silent)]
    exact ledger.results (frame.operations ▸ stored)

/-- One patch went on to its next stage. -/
structure CallMoved (before after : Gateway) (index : Nat) (call : PatchCall) (next : PatchStage) :
    Prop where
  running : before.patchCall index = some call
  moved : after.patchCall index = some { call with stage := next }
  others {other : Nat} (apart : other ≠ index) : after.patchCall other = before.patchCall other

section

variable (moved : CallMoved before after index call next)
include moved

theorem CallMoved.cases {other : Nat} {found : PatchCall} (running : after.patchCall other = some found) :
    other = index ∧ found = { call with stage := next } ∨
      other ≠ index ∧ before.patchCall other = some found := by
  by_cases same : other = index
  · subst same
    rw [moved.moved] at running
    exact .inl ⟨rfl, (Option.some.inj running).symm⟩
  · exact .inr ⟨same, by rwa [moved.others same] at running⟩

theorem Inherits.of_moved (owned : next.owned = none ∨ next.owned = call.stage.owned)
    (unready : ∀ epoch operationId, next ≠ .sends epoch operationId)
    (abandoned : ∀ operationId error, next = .abandons operationId error →
      operationId ∈ disproved trace) : Inherits before after trace where
  owned running owns := by
    rcases moved.cases running with ⟨rfl, rfl⟩ | ⟨_, ran⟩
    · rcases owned with idle | same
      · cases idle.symm.trans owns
      · exact ⟨call, moved.running, same ▸ owns⟩
    · exact ⟨_, ran, owns⟩
  ready running stage := by
    rcases moved.cases running with ⟨rfl, rfl⟩ | ⟨_, ran⟩
    · exact absurd stage (unready _ _)
    · exact ran
  abandoned running stage := by
    rcases moved.cases running with ⟨rfl, rfl⟩ | ⟨_, ran⟩
    · exact .inr (abandoned _ _ stage)
    · exact .inl ran

theorem Inherits.of_unowned (gives : next.owned = none) : Inherits before after trace := by
  refine .of_moved moved (.inl gives) (fun epoch id same => ?_) fun id error same => ?_
  · rw [same] at gives
    contradiction
  · rw [same] at gives
    contradiction

end

theorem Inherits.of_idle (idle : ∀ index call, after.patchCall index = some call →
    before.patchCall index = some call ∨ call.stage.owned = none) : Inherits before after trace where
  owned running owns := by
    rcases idle _ _ running with ran | free
    · exact ⟨_, ran, owns⟩
    · cases free.symm.trans owns
  ready running stage := by
    rcases idle _ _ running with ran | free
    · exact ran
    · rw [stage] at free
      contradiction
  abandoned running stage := by
    rcases idle _ _ running with ran | free
    · exact .inl ran
    · rw [stage] at free
      contradiction

/-- The row of the operation that a request begins. -/
def begunRow (config : Config) (call : PatchCall) (newId : String) (now : Nat) : OperationRow :=
  Operations.begun newId call.params.operationKey call.params.workspaceId
    (config.fingerprint (.applyPatch call.params)) now

theorem CallLedger.begin {newId : String} (ledger : CallLedger trace before)
    (fresh : newId ∉ before.shared.minted) (minted : after.shared.minted = newId :: before.shared.minted)
    (moved : CallMoved before after index call (.sends epoch newId))
    (unsaid : label.report.isPatch = false) : CallLedger (trace ++ [label]) after where
  owned running owns := by
    rw [minted]
    rcases moved.cases running with ⟨rfl, rfl⟩ | ⟨_, ran⟩
    · cases owns
      exact List.mem_cons_self
    · exact List.mem_cons_of_mem _ (ledger.owned ran owns)
  sent isSent := by
    rw [minted]
    exact List.mem_cons_of_mem _ (ledger.sent (patchSends_snoc unsaid ▸ isSent))
  apart running alsoRunning owns alsoOwns := by
    have unowned {other : Nat} {found : PatchCall} (ran : before.patchCall other = some found) :
        found.stage.owned ≠ some newId := fun owns => fresh (ledger.owned ran owns)
    rcases moved.cases running with ⟨rfl, rfl⟩ | ⟨_, ran⟩
    · rcases moved.cases alsoRunning with ⟨rfl, _⟩ | ⟨_, alsoRan⟩
      · rfl
      · cases owns
        exact absurd alsoOwns (unowned alsoRan)
    · rcases moved.cases alsoRunning with ⟨rfl, rfl⟩ | ⟨_, alsoRan⟩
      · cases alsoOwns
        exact absurd owns (unowned ran)
      · exact ledger.apart ran alsoRan owns alsoOwns
  abandoned running stage := by
    rcases moved.cases running with ⟨rfl, rfl⟩ | ⟨_, ran⟩
    · contradiction
    · exact disproved_snoc_of_mem (ledger.abandoned ran stage)
  once := by
    rw [patchSends_snoc unsaid]
    exact ledger.once

section

variable {operations grown : Operations} {begun row : OperationRow} {id : String}
  (inserted : operations.insert? begun = some grown)
include inserted

theorem find?_of_inserted (stored : grown.find? id = some row) : id = begun.operationId ∧ row = begun ∨
      id ≠ begun.operationId ∧ operations.find? id = some row := by
  rw [Table.find?_insert? inserted] at stored
  split at stored
  next same => exact .inl ⟨same, (Option.some.inj stored).symm⟩
  next apart => exact .inr ⟨apart, stored⟩

theorem KeysDistinct.insert (keys : KeysDistinct operations)
    (free : begun.operationKey.bind operations.loadByKey = none) : KeysDistinct grown := by
  intro id other row next key stored alsoStored named alsoNamed
  have taken {id : String} {row : OperationRow} (old : operations.find? id = some row)
      (holds : row.operationKey = some key) (wanted : begun.operationKey = some key) : False := by
    rw [wanted, Option.bind_some] at free
    exact Operations.loadByKey_eq_none free old holds
  rcases find?_of_inserted inserted stored with ⟨rfl, rfl⟩ | ⟨_, old⟩
  · rcases find?_of_inserted inserted alsoStored with ⟨rfl, _⟩ | ⟨_, alsoOld⟩
    · rfl
    · exact (taken alsoOld alsoNamed named).elim
  · rcases find?_of_inserted inserted alsoStored with ⟨rfl, rfl⟩ | ⟨_, alsoOld⟩
    · exact (taken old named alsoNamed).elim
    · exact keys old alsoOld named alsoNamed

end

theorem Ledger.begin {newId : String} (ledger : Ledger config trace before)
    (fresh : newId ∉ before.shared.minted)
    (free : call.params.operationKey.bind before.shared.operations.loadByKey = none)
    (inserted : before.shared.operations.insert? (begunRow config call newId before.shared.now) =
      some after.shared.operations)
    (minted : after.shared.minted = newId :: before.shared.minted)
    (moved : CallMoved before after index call (.sends epoch newId))
    (silent : label.report = .quiet) : Ledger config (trace ++ [label]) after := by
  have unsaid : label.report.isPatch = false := by
    rw [silent]
    rfl
  have grows {id : String} (known : id ∈ before.shared.minted) : id ∈ after.shared.minted := by
    rw [minted]
    exact List.mem_cons_of_mem _ known
  have kept {id : String} {row : OperationRow}
      (stored : before.shared.operations.find? id = some row) :
      after.shared.operations.find? id = some row := by
    rw [Table.find?_insert? inserted, if_neg]
    · exact stored
    · rintro rfl
      exact fresh (ledger.rows stored)
  constructor
  case toCallLedger => exact ledger.toCallLedger.begin fresh minted moved unsaid
  case rows =>
    intro id row stored
    rcases find?_of_inserted inserted stored with ⟨rfl, _⟩ | ⟨_, old⟩
    · rw [minted]
      exact List.mem_cons_self
    · exact grows (ledger.rows old)
  case finished =>
    intro id result last
    rw [lastResult_snoc (Report.finished?_of_isPatch unsaid)] at last
    exact grows (ledger.finished last)
  case keys => exact KeysDistinct.insert inserted ledger.keys free
  case ready =>
    intro other found epoch id running stage
    rw [patchSends_snoc unsaid]
    rcases moved.cases running with ⟨rfl, rfl⟩ | ⟨_, ran⟩
    · cases stage
      refine ⟨fun isSent => fresh (ledger.sent isSent),
        begunRow config call newId before.shared.now, ?_, ⟨rfl, rfl, rfl⟩⟩
      exact (Table.find?_insert? inserted).trans (if_pos rfl)
    · obtain ⟨unsent, row, stored, begun⟩ := ledger.ready ran stage
      exact ⟨unsent, row, kept stored, begun⟩
  case held =>
    intro send id params isSent request acted
    have earlier : send ∈ sends trace := by simpa [silent, Report.send?] using isSent
    obtain ⟨row, stored, begun⟩ := ledger.held_snoc earlier request acted
    exact ⟨row, kept stored, begun⟩
  case results =>
    intro id row stored
    rw [lastResult_snoc (Report.finished?_of_isPatch unsaid)]
    rcases find?_of_inserted inserted stored with ⟨rfl, rfl⟩ | ⟨_, old⟩
    · rw [show lastResult trace _ = none from Option.eq_none_iff_forall_ne_some.mpr fun _ last =>
        fresh (ledger.finished last)]
      exact ⟨rfl, rfl⟩
    · exact ledger.results old

theorem patchSends_snoc_sent {approval : Option String}
    (said : label.report = .sent ⟨approval, epoch, .applyPatch operationId params⟩) :
    patchSends (trace ++ [label]) = patchSends trace ++ [operationId] := by
  simp [patchSends, said, Report.send?, Send.patched?]

theorem Ledger.send (ledger : Ledger config trace before)
    (shared : after.shared = before.shared) (stage : call.stage = .sends epoch operationId)
    (moved : CallMoved before after index call (.awaits operationId))
    (said : label.report = .sent ⟨call.resume, epoch, .applyPatch operationId call.params⟩) :
    Ledger config (trace ++ [label]) after := by
  obtain ⟨unsent, row, stored, begun⟩ := ledger.ready moved.running stage
  have owns : call.stage.owned = some operationId := by
    rw [stage]
    rfl
  have inherits : Inherits before after (trace ++ [label]) := .of_moved moved (.inr owns.symm) nofun nofun
  have silent : label.report.finished? = none := by
    rw [said]
    rfl
  constructor
  case toCallLedger =>
    refine ledger.toCallLedger.inherit (shared ▸ List.Subset.refl _) inherits ?_ ?_ <;>
      rw [patchSends_snoc_sent said]
    · rw [shared]
      exact List.append_subset.mpr
        ⟨fun _ => ledger.sent, List.cons_subset.mpr ⟨ledger.rows stored, List.nil_subset _⟩⟩
    · exact List.nodup_append.mpr ⟨ledger.once, List.nodup_singleton _, fun id earlier other now same =>
        unsent (List.mem_singleton.mp now ▸ same ▸ earlier)⟩
  case rows =>
    rw [shared]
    exact ledger.rows
  case finished =>
    intro id result last
    rw [lastResult_snoc silent] at last
    rw [shared]
    exact ledger.finished last
  case keys =>
    rw [shared]
    exact ledger.keys
  case ready =>
    intro other found otherEpoch id running isReady
    have ran := inherits.ready running isReady
    obtain ⟨alsoUnsent, rest⟩ := ledger.ready ran isReady
    rw [shared, patchSends_snoc_sent said]
    refine ⟨fun isSent => ?_, rest⟩
    rcases List.mem_append.mp isSent with earlier | now
    · exact alsoUnsent earlier
    · have same : other = index := by
        refine ledger.apart ran moved.running ?_ owns
        rw [isReady, List.mem_singleton.mp now]
        rfl
      rw [same, moved.moved] at running
      cases running
      contradiction
  case held =>
    intro send id params isSent request acted
    rw [shared]
    rw [sends_snoc, said] at isSent
    rcases List.mem_append.mp isSent with earlier | now
    · exact ledger.held_snoc earlier request acted
    · have same := List.mem_singleton.mp now
      subst same
      cases request
      exact ⟨row, stored, begun⟩
  case results =>
    intro id found isStored
    rw [lastResult_snoc silent]
    rw [shared] at isStored
    exact ledger.results isStored

theorem BegunFor.finished (begun : BegunFor config params row)
    (result : ApplyPatchResult) (now : Nat) : BegunFor config params (Operations.finished result now row) :=
  ⟨begun.key, begun.workspace, begun.fingerprint⟩

theorem Ledger.finish (ledger : Ledger config trace before)
    (minted : after.shared.minted = before.shared.minted) (operations : after.shared.operations =
      (before.shared.operations.finish operationId result before.shared.now).2)
    (owns : call.stage.owned = some operationId) (gives : next.owned = none)
    (moved : CallMoved before after index call next)
    (said : label.report = .finished operationId result) : Ledger config (trace ++ [label]) after := by
  have inherits : Inherits before after (trace ++ [label]) := .of_unowned moved gives
  have unsaid : label.report.send? = none := by
    rw [said]
    rfl
  have unsent : patchSends (trace ++ [label]) = patchSends trace := by
    simp [patchSends, unsaid]
  have found {id : String} {row : OperationRow}
      (stored : after.shared.operations.find? id = some row) :
      ∃ old, before.shared.operations.find? id = some old ∧
        row = if old.operationId = operationId then Operations.finished result before.shared.now old
          else old := by
    rw [operations, Operations.find?_finish] at stored
    obtain ⟨old, isOld, same⟩ := Option.map_eq_some_iff.mp stored
    exact ⟨old, isOld, same.symm⟩
  have kept {id : String} {row : OperationRow} {params : ApplyPatchParams}
      (stored : before.shared.operations.find? id = some row) (begun : BegunFor config params row) :
      ∃ next, after.shared.operations.find? id = some next ∧ BegunFor config params next := by
    refine ⟨_, by rw [operations, Operations.find?_finish, stored, Option.map_some], ?_⟩
    split
    · exact begun.finished _ _
    · exact begun
  have said? : label.report.finished? = some (operationId, result) := by
    rw [said]
    rfl
  constructor
  case toCallLedger =>
    exact ledger.toCallLedger.keep (by rw [minted]; exact List.Subset.refl _) unsent inherits
  case rows =>
    intro id row stored
    obtain ⟨old, isOld, _⟩ := found stored
    rw [minted]
    exact ledger.rows isOld
  case finished =>
    intro id last isLast
    rw [minted]
    rw [lastResult_snoc_finished said?] at isLast
    split at isLast
    next same =>
      rw [same]
      exact ledger.owned moved.running owns
    · exact ledger.finished isLast
  case keys =>
    have named {id key : String} {row : OperationRow}
        (stored : after.shared.operations.find? id = some row) (holds : row.operationKey = some key) :
        ∃ old, before.shared.operations.find? id = some old ∧ old.operationKey = some key := by
      obtain ⟨old, isOld, rfl⟩ := found stored
      refine ⟨old, isOld, ?_⟩
      split at holds <;> exact holds
    intro id other row next key stored alsoStored holds alsoHolds
    obtain ⟨old, isOld, oldKey⟩ := named stored holds
    obtain ⟨_, isAlsoOld, alsoOldKey⟩ := named alsoStored alsoHolds
    exact ledger.keys isOld isAlsoOld oldKey alsoOldKey
  case ready =>
    intro other found epoch id running stage
    obtain ⟨isUnsent, row, stored, begun⟩ := ledger.ready (inherits.ready running stage) stage
    rw [unsent]
    exact ⟨isUnsent, kept stored begun⟩
  case held =>
    intro send id params isSent request acted
    have earlier : send ∈ sends trace := by simpa [unsaid] using isSent
    obtain ⟨row, stored, begun⟩ := ledger.held_snoc earlier request acted
    exact kept stored begun
  case results =>
    intro id row stored
    obtain ⟨_, isOld, rfl⟩ := found stored
    have named := (Table.find?_eq_some.mp isOld).2
    rw [lastResult_snoc_finished said?, ← named]
    split
    · exact ⟨rfl, rfl⟩
    · rw [named]
      exact ledger.results isOld

/-- An operation that no Runner acted on is abandoned while it has no result. -/
theorem Ledger.abandon (ledger : Ledger config trace before)
    (minted : after.shared.minted = before.shared.minted)
    (operations : after.shared.operations = (before.shared.operations.abandon operationId).2)
    (stage : call.stage = .abandons operationId error)
    (moved : CallMoved before after index call (.givesBack error))
    (silent : label.report = .quiet) : Ledger config (trace ++ [label]) after := by
  have inherits : Inherits before after (trace ++ [label]) := .of_unowned moved rfl
  have unsaid : label.report.isPatch = false := by
    rw [silent]
    rfl
  have gone := ledger.abandoned moved.running stage
  have owns : call.stage.owned = some operationId := by
    rw [stage]
    rfl
  have found {id : String} {row : OperationRow}
      (stored : after.shared.operations.find? id = some row) :
      before.shared.operations.find? id = some row := by
    rw [operations, Operations.find?_abandon] at stored
    exact (Option.filter_eq_some_iff.mp stored).1
  have kept {id : String} {row : OperationRow} (apart : id ≠ operationId)
      (stored : before.shared.operations.find? id = some row) :
      after.shared.operations.find? id = some row := by
    rwa [operations, Operations.find?_abandon_of_ne _ apart]
  constructor
  case toCallLedger =>
    exact ledger.toCallLedger.keep (by rw [minted]; exact List.Subset.refl _) (patchSends_snoc unsaid)
      inherits
  case rows =>
    rw [minted]
    exact fun stored => ledger.rows (found stored)
  case finished =>
    intro id result last
    rw [lastResult_snoc (Report.finished?_of_isPatch unsaid)] at last
    rw [minted]
    exact ledger.finished last
  case keys => exact fun stored alsoStored => ledger.keys (found stored) (found alsoStored)
  case ready =>
    intro other found epoch id running isReady
    have ran := inherits.ready running isReady
    obtain ⟨unsent, row, stored, begun⟩ := ledger.ready ran isReady
    rw [patchSends_snoc unsaid]
    refine ⟨unsent, row, kept (fun same => ?_) stored, begun⟩
    have sameCall : other = index := ledger.apart ran moved.running (by rw [isReady, same]; rfl) owns
    rw [sameCall, moved.running] at ran
    cases ran
    cases isReady.symm.trans stage
  case held =>
    intro send id params isSent request acted
    have earlier : send ∈ sends trace := by simpa [silent, Report.send?] using isSent
    obtain ⟨row, stored, begun⟩ := ledger.held_snoc earlier request acted
    refine ⟨row, kept (fun same => ?_) stored, begun⟩
    rw [same] at acted
    exact acted (disproved_snoc_of_mem gone)
  case results =>
    intro id row stored
    rw [lastResult_snoc (Report.finished?_of_isPatch unsaid)]
    exact ledger.results (found stored)

namespace PatchCall

theorem after_owned (outcome : Except ErrorBody Unit) (gives : next.owned = none) :
    (PatchCall.after next outcome).owned = none := by
  cases outcome with
  | ok => exact gives
  | error => rfl

theorem afterAnswer_owned (operationId : String) (answer : Except RunnerError Applied) :
    (afterAnswer operationId answer).owned = some operationId := by
  unfold afterAnswer
  split
  · rfl
  · split <;> rfl
  all_goals rfl

theorem afterAnswer_ne_sends (answer : Except RunnerError Applied) (epoch : Option Nat) (id : String) :
    afterAnswer operationId answer ≠ .sends epoch id := by
  unfold afterAnswer
  split
  · nofun
  · split <;> nofun
  all_goals nofun

theorem afterAnswer_abandons {answer : Except RunnerError Applied} {id : String}
    (abandons : afterAnswer operationId answer = .abandons id error) :
    answerReport operationId answer = .disproved id := by
  unfold afterAnswer at abandons
  split at abandons
  · contradiction
  · split at abandons
    next refused =>
      cases abandons
      simp [answerReport, refused]
    · contradiction
  all_goals contradiction

theorem answerReport_isPatch (answer : Except RunnerError Applied) :
    (answerReport operationId answer).isPatch = false := by
  unfold answerReport
  split
  · split <;> rfl
  · rfl

end PatchCall

section

variable (ledger : Ledger config trace before)
include ledger

/-- The section that gives an operation its result, whether or not the operation is still there. -/
theorem Ledger.close (left : after.shared = { before.shared with
      operations := (before.shared.operations.finish operationId result before.shared.now).2 })
    (owns : call.stage.owned = some operationId) (gives : next.owned = none)
    (moved : CallMoved before after index call next)
    (said : label.report = PatchCall.finishReport operationId result
      (before.shared.operations.finish operationId result before.shared.now).1) :
    Ledger config (trace ++ [label]) after := by
  have minted : after.shared.minted = before.shared.minted := by rw [left]
  have operations : after.shared.operations =
      (before.shared.operations.finish operationId result before.shared.now).2 := by rw [left]
  cases stored : before.shared.operations.find? operationId with
  | some =>
      have ok : (before.shared.operations.finish operationId result before.shared.now).1 = .ok () := by
        simp [Operations.finish, stored]
      rw [ok] at said
      exact ledger.finish minted operations owns gives moved said
  | none =>
      simp only [Operations.finish, stored] at said operations
      refine ledger.keep ⟨operations, ?_⟩ (by rw [said]; rfl) (.of_unowned moved gives)
      rw [minted]
      exact List.Subset.refl _

theorem Ledger.patch (fresh : env.newId ∉ before.shared.minted)
    (left : after.shared = (call.advance config before.shared env).shared)
    (reported : label.report = (call.advance config before.shared env).report)
    (moved : CallMoved before after index call (call.advance config before.shared env).stage) :
    Ledger config (trace ++ [label]) after := by
  have still (frame : LedgerFrame before.shared (call.advance config before.shared env).shared)
      (silent : (call.advance config before.shared env).report.isPatch = false)
      (gives : (call.advance config before.shared env).stage.owned = none) :
      Ledger config (trace ++ [label]) after :=
    ledger.keep (left ▸ frame) (reported ▸ silent) (.of_unowned moved gives)
  obtain ⟨params, resume, stage⟩ := call
  cases stage with
  | waits | asks =>
      refine still (.refl _) rfl ?_
      dsimp only [PatchCall.advance]
      split <;> rfl
  | admits epoch | marks epoch =>
      exact still ⟨rfl, List.Subset.refl _⟩ rfl (PatchCall.after_owned _ rfl)
  | begins epoch =>
      obtain ⟨answer, operations, begun, spec⟩ := PatchCall.begin_cases config before.shared env params
      simp only [PatchCall.advance, begun] at left reported moved
      have minted : after.shared.minted = env.newId :: before.shared.minted := by rw [left]
      have refused (same : operations = before.shared.operations)
          (gives : (PatchCall.afterBegin ⟨params, resume, .begins epoch⟩ epoch env.hint answer).owned =
            none) : Ledger config (trace ++ [label]) after := by
        refine ledger.keep ⟨by rw [left, same], ?_⟩ (by rw [reported]; rfl) (.of_unowned moved gives)
        rw [minted]
        exact List.subset_cons_self _ _
      cases spec with
      | conflict | replayed | taken => exact refused rfl rfl
      | fresh free inserted =>
          refine ledger.begin fresh free ?_ minted moved reported
          rw [left]
          exact inserted
  | sends => exact ledger.send left rfl moved reported
  | awaits =>
      refine ledger.keep ⟨by rw [left]; rfl, ?_⟩ ?_ ?_
      · rw [left]
        exact List.Subset.refl _
      · rw [reported]
        exact PatchCall.answerReport_isPatch _
      · refine .of_moved moved (.inr (PatchCall.afterAnswer_owned _ _)) ?_ fun id error abandons => ?_
        · exact PatchCall.afterAnswer_ne_sends _
        · have said : label.report = .disproved id :=
            reported.trans (PatchCall.afterAnswer_abandons abandons)
          simp [said, Report.disproved?]
  | finishes => exact ledger.close left rfl (PatchCall.after_owned _ rfl) moved reported
  | rejects => exact ledger.close left rfl rfl moved reported
  | abandons => exact ledger.abandon (by rw [left]; rfl) (by rw [left]; rfl) rfl moved reported
  | givesBack => exact still ⟨rfl, List.Subset.refl _⟩ rfl rfl
  | returns => exact still (.refl _) rfl rfl

theorem Ledger.step (stepped : (gatewaySystem config).step before label after) :
    Ledger config (trace ++ [label]) after := by
  cases Gateway.step_ledger stepped with
  | patched _ _ _ fresh running left reported moved others =>
      exact ledger.patch fresh left reported ⟨running, moved, fun apart => others _ apart⟩
  | beside frame silent idle => exact ledger.keep frame silent (.of_idle idle)

end

theorem Ledger.initial (isInitial : (gatewaySystem config).initial gateway) :
    Ledger config [] gateway := by
  obtain ⟨runner, link, rfl⟩ := isInitial
  have empty (id : String) : (Shared.opened config { runner := runner, link := link } runner
      link).operations.find? id = none := by
    rw [(Shared.opened_stored _ _ _ _).2.1]
    rfl
  have calls (shared : Shared) : CallLedger [] { shared := shared } := by
    constructor
    case once => exact .nil
    all_goals nofun
  constructor
  case toCallLedger => exact calls _
  case rows =>
    intro id row stored
    rw [empty] at stored
    contradiction
  case finished => nofun
  case keys =>
    intro id other row next key stored
    rw [empty] at stored
    contradiction
  case ready => nofun
  case held => nofun
  case results =>
    intro id row stored
    rw [empty] at stored
    contradiction

theorem Ledger.of_run (isInitial : (gatewaySystem config).initial before)
    (run : (gatewaySystem config).Run before trace after) : Ledger config trace after :=
  run.records (Ledger config) (fun ledger stepped => ledger.step stepped) (Ledger.initial isInitial)

end CodeSpace.Server
