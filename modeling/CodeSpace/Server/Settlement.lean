import CodeSpace.Server.RecordTurns

namespace CodeSpace.Server

open Data Domain Store Transition

/-! What a reconciliation makes of the approvals whose executions it took up: an approval is given back
when none of its executions started, and consumed with one that did. -/

variable {config : Config} {env : Environment} {shared : Shared} {before after gateway : Gateway}
  {trace : List Label} {label : Label} {id : String} {record : ProcessRecord}

namespace Pass

variable (pass : Pass)

/-- The record was one to reconcile: no operator released it, and it was not sent under the Claim. -/
def Takes (runner : RunnerRef) (record : ProcessRecord) : Prop :=
  record.releasedAtMs = none ∧
    ¬ (record.runner = runner.stored ∧ record.controllerEpoch.any (toSql pass.claim.epoch ≤ ·) = true)

/-- The record said so already, or the Runner answered that it created nothing for the execution. -/
def Unstarted (record : ProcessRecord) : Prop :=
  record.phase = .terminal ∧ record.outcome = some .notStarted ∨ record.phase = .dispatching ∧
      (Answered pass.recalled record.processId .notReceived ∨
        Answered pass.recalled record.processId .refused)

/-- The record said so already, or the Runner answered that it created the process. -/
def Created (record : ProcessRecord) : Prop :=
  record.phase = .terminal ∧ record.outcome ≠ some .notStarted ∨
    Answered pass.recalled record.processId .dropped ∨
    ∃ workspaceId status, Answered pass.recalled record.processId (.held workspaceId status)

/-- What the pass knows of an execution by the link it made. -/
def Proves (shared : Shared) (record : ProcessRecord) : Link → Prop
  | .started processId => processId = record.processId ∧ pass.Created record
  | .notStarted =>
      pass.Unstarted record ∧
      ∃ now, shared.processes.find? record.processId = some now ∧ now.phase = .terminal ∧
        now.outcome = some .notStarted
  | .unknown => True

/-- Every execution recorded for the approval is one that the pass took up. -/
def TookUp (processes : ProcessRecords) (id : String) : Prop :=
  ∀ processId record, processes.find? processId = some record → record.approvalId = some id →
    ∃ taken ∈ pass.records, taken.processId = processId

/-- Why the approval is settled: with an execution that started, or because none did. -/
def Grounds (id : String) : Option OperationResumeResult → Prop
  | some result => ∃ record processId, (record, Link.started processId) ∈ pass.links ∧
      record.approvalId = some id ∧ result = consumedBy id processId
  | none => ∀ link ∈ linksOf pass.links id, link = .notStarted

end Pass

/-- The approval is still being resumed. -/
def Resuming (approvals : Approvals) (id : String) : Prop :=
  ∃ row, approvals.find? id = some row ∧ row.state = .resuming

def PassStage.Accounted (shared : Shared) (pass : Pass) : PassStage → Prop
  | .accounts | .reads | .loses _ | .asks => pass.links = []
  | .applies decided =>
      pass.links.map Prod.fst ++ decided.map Prod.fst = pass.records ∧
      ∀ record decision, (record, decision) ∈ decided →
        ∃ attempts, Decided shared.runner pass.recalled attempts record decision
  | .settles _ | .settleEnds _ _ _ => pass.links.map Prod.fst = pass.records
  | .settleMarks id started _ => pass.links.map Prod.fst = pass.records ∧ pass.Grounds id started
  | .settleReads id started _ =>
      pass.links.map Prod.fst = pass.records ∧ pass.Grounds id started ∧
      pass.TookUp shared.processes id
  | .settleReturns id _ =>
      pass.links.map Prod.fst = pass.records ∧ pass.Grounds id none ∧
      pass.TookUp shared.processes id ∧ Resuming shared.approvals id
  | .settleFinishes id result _ | .settleFinishWrites id result _ =>
      pass.links.map Prod.fst = pass.records ∧ pass.Grounds id (some result) ∧
      pass.TookUp shared.processes id ∧ Resuming shared.approvals id
  | .tells | .ended => True

structure Pass.Accounted (shared : Shared) (pass : Pass) : Prop where
  taken {record : ProcessRecord} (isTaken : record ∈ pass.records) :
    pass.Takes shared.runner record ∧
    ∃ now, shared.processes.find? record.processId = some now ∧ RecordLater record now
  links {record : ProcessRecord} {link : Link} (linked : (record, link) ∈ pass.links) :
    pass.Proves shared record link
  stage : pass.stage.Accounted shared pass

theorem Pass.tookUp_of_covers {pass : Pass} (covers : pass.covers shared id = true) :
    pass.TookUp shared.processes id := by
  intro processId record stored isFor
  obtain ⟨member, named⟩ := Table.find?_eq_some.mp stored
  have listed : record ∈ shared.processes.recordsOfApproval id :=
    List.mem_filter.mpr ⟨member, decide_eq_true isFor⟩
  obtain ⟨taken, isTaken, same⟩ := List.any_eq_true.mp (List.all_eq_true.mp covers _ listed)
  exact ⟨taken, isTaken, (of_decide_eq_true same).trans named⟩

section Links

variable {pass : Pass} {decision : Decision} {attempts : List (String × Attempt)} {ours : RunnerRef}
  {processId : String} {written : Bool}

theorem Decided.created (decided : Decided ours pass.recalled attempts record decision)
    (linked : decision.link record.processId written = .started processId) :
    processId = record.processId ∧ pass.Created record := by
  cases decided with
  | settled terminal =>
      cases started : decide (record.outcome ≠ some .notStarted) with
      | true =>
          rw [started] at linked
          cases linked
          exact ⟨rfl, .inl ⟨terminal, of_decide_eq_true started⟩⟩
      | false =>
          rw [started] at linked
          contradiction
  | answered _ answered supports =>
      cases supports with
      | running | ended =>
          cases linked
          exact ⟨rfl, .inr (.inr ⟨_, _, answered⟩)⟩
      | dropped =>
          cases linked
          exact ⟨rfl, .inr (.inl answered)⟩
      | notReceived | refused =>
          dsimp only [Decision.link] at linked
          split at linked <;> contradiction
      | pending | blocked => contradiction
  | pending | blocked => contradiction

theorem Decided.unstarted (decided : Decided ours pass.recalled attempts record decision)
    (linked : decision.link record.processId written = .notStarted) :
    pass.Unstarted record ∧ (decision = .settled false ∨
      decision = .notStarted ∧ written = true ∧ record.runner = ours) := by
  cases decided with
  | settled terminal =>
      cases started : decide (record.outcome ≠ some .notStarted) with
      | true =>
          rw [started] at linked
          contradiction
      | false => exact ⟨.inl ⟨terminal, by simpa using started⟩, .inl rfl⟩
  | answered asked answered supports =>
      have own : record.runner = ours := by
        simp only [isAsked, Bool.and_eq_true, decide_eq_true_eq] at asked
        exact asked.2
      cases supports with
      | notReceived dispatching =>
          refine ⟨.inr ⟨dispatching, .inl answered⟩, .inr ⟨rfl, ?_, own⟩⟩
          cases written with
          | true => rfl
          | false => contradiction
      | refused dispatching =>
          refine ⟨.inr ⟨dispatching, .inr answered⟩, .inr ⟨rfl, ?_, own⟩⟩
          cases written with
          | true => rfl
          | false => contradiction
      | running | ended | dropped | pending | blocked => contradiction
  | pending | blocked => contradiction

theorem find?_recordEnd_dispatching {processes : ProcessRecords} {now : ProcessRecord}
    (stored : processes.find? processId = some now) (own : now.runner = ours)
    (dispatching : now.phase = .dispatching) :
    ∃ next, (processes.recordEnd ours processId .notStarted).find? processId = some next ∧
      next.phase = .terminal ∧ next.outcome = some .notStarted := by
  have named := (Table.find?_eq_some.mp stored).2
  refine ⟨(now.ended .notStarted).written, ?_, ?_⟩
  · rw [ProcessRecords.find?_recordEnd, stored, Option.map_some, if_pos (by simp [named, own])]
  · simp [ProcessRecord.ended, dispatching, ProcessRecord.written]

end Links

section Steps

variable {pass : Pass} {next : Shared} {link : Link}

theorem Pass.Proves.keep (proves : pass.Proves shared record link)
    (later : RecordsLater shared.processes next.processes) : pass.Proves next record link := by
  cases link with
  | started | unknown => exact proves
  | notStarted =>
      obtain ⟨unstarted, _, stored, ended, said⟩ := proves
      obtain ⟨then_, found, moved⟩ := later _ _ stored
      exact ⟨unstarted, then_, found, moved.unstarted ended said⟩

theorem Pass.Accounted.taken_keep (accounted : pass.Accounted shared) (runner : next.runner = shared.runner)
    (later : RecordsLater shared.processes next.processes) (isTaken : record ∈ pass.records) :
    pass.Takes next.runner record ∧
      ∃ now, next.processes.find? record.processId = some now ∧ RecordLater record now := by
  obtain ⟨takes, _, stored, earlier⟩ := accounted.taken isTaken
  obtain ⟨then_, found, moved⟩ := later _ _ stored
  exact ⟨runner ▸ takes, then_, found, earlier.trans moved⟩

theorem Pass.Accounted.keep (accounted : pass.Accounted shared) (runner : next.runner = shared.runner)
    (later : RecordsLater shared.processes next.processes)
    (tookUp : ∀ id, pass.guarding = some id → pass.TookUp shared.processes id →
      pass.TookUp next.processes id)
    (resuming : ∀ id, pass.guarding = some id → Resuming shared.approvals id →
      Resuming next.approvals id) : pass.Accounted next where
  taken := accounted.taken_keep runner later
  links linked := (accounted.links linked).keep later
  stage := by
    have staged := accounted.stage
    obtain ⟨_, _, _, _, _, _, stage⟩ := pass
    cases stage with
    | applies => exact ⟨staged.1, runner ▸ staged.2⟩
    | settleReads id =>
        obtain ⟨listed, grounds, covered⟩ := staged
        exact ⟨listed, grounds, tookUp id rfl covered⟩
    | settleReturns id rest | settleFinishes id result rest | settleFinishWrites id result rest =>
        obtain ⟨listed, grounds, covered, resumed⟩ := staged
        exact ⟨listed, grounds, tookUp id rfl covered, resuming id rfl resumed⟩
    | _ => exact staged

/-- A pass finds what it goes on still so where it acts on it: a record that it tells of an execution
that never started is still dispatching, and an approval that it marks in flight to settle has no
execution that the pass did not take up. -/
def Pass.actsFirmly (shared : Shared) (env : Environment) (pass : Pass) : Bool :=
  match pass.stage with
  | .applies ((record, .notStarted) :: _) =>
      env.unwritten.isSome ||
        (shared.processes.find? record.processId).any fun now => now.phase = .dispatching
  | .settleMarks id _ _ => pass.covers shared id
  | _ => true

/-- What `apply` links is proved by what it wrote. -/
theorem Pass.apply_proves {decision : Decision} {attempts : List (String × Attempt)}
    {rest : List (ProcessRecord × Decision)}
    (accounted : pass.Accounted shared) (isTaken : record ∈ pass.records)
    (stage : pass.stage = .applies ((record, decision) :: rest))
    (decided : Decided shared.runner pass.recalled attempts record decision)
    (firm : pass.actsFirmly shared env = true)
    (written : next.processes =
      decision.record env.unwritten.isNone shared.runner record.processId shared.processes) :
    pass.Proves next record (decision.link record.processId env.unwritten.isNone) := by
  cases linked : decision.link record.processId env.unwritten.isNone with
  | unknown => trivial
  | started => exact decided.created linked
  | notStarted =>
      obtain ⟨unstarted, how⟩ := decided.unstarted linked
      obtain ⟨_, now, stored, later⟩ := accounted.taken isTaken
      refine ⟨unstarted, ?_⟩
      rw [written]
      rcases how with rfl | ⟨rfl, isWritten, own⟩
      · obtain ⟨terminal, started⟩ := decided.settled_started
        have said : record.outcome = some .notStarted := by simpa using started
        rw [show Decision.record _ _ _ _ shared.processes = shared.processes by
          cases env.unwritten.isNone <;> rfl]
        exact ⟨now, stored, later.unstarted terminal said⟩
      · have dispatching : now.phase = .dispatching := by
          have unfailed : env.unwritten = none := by simpa using isWritten
          simpa [actsFirmly, stage, unfailed, stored] using firm
        rw [isWritten]
        exact find?_recordEnd_dispatching stored (later.runner.trans own) dispatching

theorem Pass.settle_accounted {rest : List String} (accounted : pass.Accounted shared)
    (stage : pass.stage = .settles (id :: rest)) :
    Accounted shared { pass with stage := pass.settle shared id rest } := by
  have listed := accounted.stage
  rw [stage] at listed
  have others : Accounted shared { pass with stage := .settles rest } :=
    ⟨accounted.taken, accounted.links, listed⟩
  unfold settle
  split
  · split
    next processId found =>
      refine ⟨accounted.taken, accounted.links, listed, ?_⟩
      obtain ⟨link, linked, started⟩ := List.exists_of_findSome?_eq_some found
      obtain ⟨⟨record, made⟩, member, rfl⟩ := List.mem_map.mp linked
      obtain ⟨isMade, isFor⟩ := List.mem_filter.mp member
      cases made with
      | started =>
          cases started
          exact ⟨record, processId, isMade, of_decide_eq_true isFor, rfl⟩
      | _ => contradiction
    · split
      next unstarted =>
        refine ⟨accounted.taken, accounted.links, listed, fun link linked => ?_⟩
        exact of_decide_eq_true (List.all_eq_true.mp unstarted link linked)
      · exact others
  · exact others

theorem Pass.read_taken (pass : Pass) (read : record ∈
      shared.processes.recordsToReconcile shared.approvals shared.runner pass.claim.epoch) :
    pass.Takes shared.runner record ∧
      ∃ now, shared.processes.find? record.processId = some now ∧ RecordLater record now := by
  obtain ⟨member, selected⟩ := List.mem_filter.mp read
  simp only [Bool.and_eq_true, Bool.not_eq_true', Bool.and_eq_false_iff, Option.isNone_iff_eq_none,
    decide_eq_false_iff_not] at selected
  refine ⟨⟨selected.1.2, fun current => ?_⟩, record, Table.find?_of_mem member, .refl record⟩
  rcases selected.2 with apart | earlier
  · exact apart current.1
  · rw [earlier] at current
    exact absurd current.2 Bool.false_ne_true

theorem Pass.reads_accounted (accounted : pass.Accounted shared) (stage : pass.stage = .reads) :
    (pass.advance config shared env).stage.Accounted (pass.advance config shared env).shared := by
  have staged := accounted.stage
  rw [stage] at staged
  rw [advance, stage]
  dsimp only [Shared.readRecords]
  split
  · exact ⟨accounted.taken, accounted.links, trivial⟩
  · split
    · exact ⟨accounted.taken, accounted.links, trivial⟩
    next read =>
      split at read
      · contradiction
      · cases read
        exact ⟨pass.read_taken, accounted.links, staged⟩

theorem Pass.asks_accounted (accounted : pass.Accounted shared) (stage : pass.stage = .asks) :
    (pass.advance config shared env).stage.Accounted (pass.advance config shared env).shared := by
  have unlinked := accounted.stage
  rw [stage] at unlinked
  rw [advance, stage]
  refine ⟨accounted.taken, fun linked => ?_, ?_, fun record decision decided => ?_⟩
  · exact absurd (unlinked ▸ linked) List.not_mem_nil
  · simp [show pass.links = [] from unlinked, Function.comp_def]
  · obtain ⟨_, _, same⟩ := List.mem_map.mp decided
    cases same
    exact ⟨_, decideFor_decided ..⟩

theorem Pass.apply_accounted {decision : Decision} {rest : List (ProcessRecord × Decision)}
    {written : Bool} {bars : Bars} (accounted : pass.Accounted next)
    (stage : pass.stage = .applies ((record, decision) :: rest))
    (proves : pass.Proves next record (decision.link record.processId written)) :
    Accounted next
      { pass with
        links := pass.links ++ [(record, decision.link record.processId written)]
        bars := bars
        stage := .applies rest } := by
  have staged := accounted.stage
  rw [stage] at staged
  obtain ⟨listed, grounds⟩ := staged
  refine ⟨accounted.taken, fun {other link} linked => ?_, by simpa using listed,
    fun other decision isDecided => grounds other decision (List.mem_cons_of_mem _ isDecided)⟩
  rcases List.mem_append.mp linked with known | new
  · exact accounted.links known
  · cases List.mem_singleton.mp new
    exact proves

theorem Pass.advance_accounted (accounted : pass.Accounted shared)
    (firm : pass.actsFirmly shared env = true) :
    (pass.advance config shared env).stage.Accounted (pass.advance config shared env).shared := by
  have turn : RecordsTurn shared.processes none (pass.advance config shared env).shared.processes :=
    pass.advance_recordsTurn shared
  have runner : (pass.advance config shared env).shared.runner = shared.runner :=
    (pass.advance_surroundings shared).runner
  have taken {record : ProcessRecord} : record ∈ pass.records → _ :=
    accounted.taken_keep runner turn.later
  have links {record : ProcessRecord} {link : Link} (linked : (record, link) ∈ pass.links) :
      pass.Proves (pass.advance config shared env).shared record link :=
    (accounted.links linked).keep turn.later
  have staged := accounted.stage
  have covers {id : String} {started : Option OperationResumeResult} {rest : List String}
      (stage : pass.stage = .settleMarks id started rest) : pass.TookUp shared.processes id :=
    tookUp_of_covers (by simpa [actsFirmly, stage] using firm)
  have proves {record : ProcessRecord} {decision : Decision} {rest : List (ProcessRecord × Decision)}
      {attempts : List (String × Attempt)} (isTaken : record ∈ pass.records)
      (stage : pass.stage = .applies ((record, decision) :: rest))
      (decided : Decided shared.runner pass.recalled attempts record decision) :
      _ → pass.Proves (pass.advance config shared env).shared record
        (decision.link record.processId env.unwritten.isNone) :=
    apply_proves accounted isTaken stage decided firm
  obtain ⟨_, records, _, _, _, _, stage⟩ := pass
  cases stage with
  | accounts | settleEnds => exact ⟨taken, links, staged⟩
  | reads => exact reads_accounted accounted rfl
  | loses runners => cases runners <;> exact ⟨taken, links, staged⟩
  | asks => exact asks_accounted accounted rfl
  | applies decided =>
      obtain ⟨listed, grounds⟩ := staged
      dsimp only at listed
      cases decided with
      | nil =>
          rw [List.map_nil, List.append_nil] at listed
          exact ⟨taken, links, listed⟩
      | cons head =>
          obtain ⟨record, decision⟩ := head
          have isTaken : record ∈ records := by
            rw [← listed]
            simp
          obtain ⟨_, decided⟩ := grounds record decision List.mem_cons_self
          exact apply_accounted ⟨taken, links, listed, grounds⟩ rfl (proves isTaken rfl decided rfl)
  | settles approvals =>
      cases approvals with
      | nil => exact ⟨taken, links, trivial⟩
      | cons =>
          dsimp only [advance]
          split
          · exact ⟨taken, links, staged⟩
          · exact settle_accounted accounted rfl
  | settleMarks =>
      obtain ⟨listed, grounds⟩ := staged
      dsimp only [advance]
      split
      · exact ⟨accounted.taken, accounted.links, listed⟩
      · exact ⟨accounted.taken, accounted.links, listed, grounds, covers rfl⟩
  | settleReads id started =>
      obtain ⟨listed, grounds, covered⟩ := staged
      dsimp only [advance]
      split
      · exact ⟨taken, links, listed⟩
      next row stored =>
        split
        · exact ⟨taken, links, listed⟩
        next resuming =>
          have resumed : Resuming shared.approvals id := ⟨row, stored, Decidable.not_not.mp resuming⟩
          cases started <;> exact ⟨taken, links, listed, grounds, covered, resumed⟩
  | settleReturns | settleFinishWrites => exact ⟨taken, links, staged.1⟩
  | settleFinishes =>
      dsimp only [advance]
      split
      · exact ⟨taken, links, staged.1⟩
      · exact ⟨taken, links, staged.1⟩
      · exact ⟨taken, links, staged⟩
  | tells | ended => exact ⟨taken, links, trivial⟩

end Steps

/-- What a section of a reconciliation makes of the row of an approval, and why. -/
inductive SettledRow (shared : Shared) (pass : Pass) (id : String) (row : ApprovalRow) :
    ApprovalRow → Prop
  | kept : SettledRow shared pass id row row
  | returned (resuming : row.state = .resuming)
      (unstarted : ∀ processId record, shared.processes.find? processId = some record →
        record.approvalId = some id →
        record.phase = .terminal ∧ record.outcome = some .notStarted ∧
          ∃ taken ∈ pass.records, taken.processId = processId ∧ pass.Takes shared.runner taken ∧
            pass.Unstarted taken) :
      SettledRow shared pass id row { row with state := .granted }
  | consumed {processId : String} {record taken : ProcessRecord} (resuming : row.state = .resuming)
      (takes : ∀ processId record, shared.processes.find? processId = some record →
        record.approvalId = some id →
        ∃ taken ∈ pass.records, taken.processId = processId ∧ pass.Takes shared.runner taken)
      (stored : shared.processes.find? processId = some record) (isFor : record.approvalId = some id)
      (isTaken : taken ∈ pass.records) (same : taken.processId = processId)
      (created : pass.Created taken) :
      SettledRow shared pass id row (row.consumedBy (.ok (consumedBy id processId)))

section Rows

variable {pass : Pass} {row : ApprovalRow} {processId : String}

variable (accounted : pass.Accounted shared)
include accounted

theorem Pass.Accounted.takes (tookUp : pass.TookUp shared.processes id)
    (stored : shared.processes.find? processId = some record) (isFor : record.approvalId = some id) :
    ∃ taken ∈ pass.records, taken.processId = processId ∧ pass.Takes shared.runner taken ∧
      taken.approvalId = some id := by
  obtain ⟨taken, isTaken, rfl⟩ := tookUp processId record stored isFor
  obtain ⟨takes, _, found, later⟩ := accounted.taken isTaken
  cases stored.symm.trans found
  exact ⟨taken, isTaken, rfl, takes, later.approvalId.symm.trans isFor⟩

/-- No execution of an approval that is given back started. -/
theorem Pass.Accounted.returns
    (listed : pass.links.map Prod.fst = pass.records) (grounds : pass.Grounds id none)
    (tookUp : pass.TookUp shared.processes id)
    (stored : shared.processes.find? processId = some record) (isFor : record.approvalId = some id) :
    record.phase = .terminal ∧ record.outcome = some .notStarted ∧
      ∃ taken ∈ pass.records, taken.processId = processId ∧ pass.Takes shared.runner taken ∧
        pass.Unstarted taken := by
  obtain ⟨_, isTaken, rfl, takes, itsApproval⟩ := accounted.takes tookUp stored isFor
  have isListed := isTaken
  rw [← listed] at isListed
  obtain ⟨⟨_, link⟩, linked, rfl⟩ := List.mem_map.mp isListed
  have own : link ∈ Pass.linksOf pass.links id :=
    List.mem_map_of_mem (List.mem_filter.mpr ⟨linked, decide_eq_true itsApproval⟩)
  rw [grounds link own] at linked
  obtain ⟨unstarted, _, found, ended, said⟩ := accounted.links linked
  cases stored.symm.trans found
  exact ⟨ended, said, _, isTaken, rfl, takes, unstarted⟩

/-- An approval is consumed with an execution of its own that the Runner created. -/
theorem Pass.Accounted.consumes {result : OperationResumeResult}
    (listed : pass.links.map Prod.fst = pass.records) (grounds : pass.Grounds id (some result))
    (tookUp : pass.TookUp shared.processes id) (resuming : row.state = .resuming) :
    SettledRow shared pass id row (row.consumedBy (.ok result)) := by
  obtain ⟨taken, processId, linked, isFor, rfl⟩ := grounds
  obtain ⟨rfl, created⟩ := accounted.links linked
  have isTaken : taken ∈ pass.records := listed ▸ List.mem_map_of_mem linked
  obtain ⟨_, _, stored, later⟩ := accounted.taken isTaken
  refine .consumed resuming (fun processId record found itsApproval => ?_) stored
    (later.approvalId.trans isFor) isTaken rfl created
  obtain ⟨taken, isTaken, same, takes, _⟩ := accounted.takes tookUp found itsApproval
  exact ⟨taken, isTaken, same, takes⟩

theorem Pass.advance_settledRow (stored : shared.approvals.find? id = some row) :
    ∃ next, (pass.advance config shared env).shared.approvals.find? id = some next ∧
      SettledRow shared pass id row next ∧ (next ≠ row → pass.guarding = some id) := by
  have kept {approvals : Approvals} (same : approvals = shared.approvals) :
      ∃ next, approvals.find? id = some next ∧ SettledRow shared pass id row next ∧
        (next ≠ row → pass.guarding = some id) :=
    ⟨row, same ▸ stored, .kept, fun changed => absurd rfl changed⟩
  have staged := accounted.stage
  by_cases own : pass.guarding = some id
  · cases stage : pass.stage with
    | settleReturns settled =>
        rw [stage] at staged
        obtain ⟨listed, grounds, tookUp, _, found, resuming⟩ := staged
        obtain rfl : settled = id := by simpa [guarding, stage] using own
        cases stored.symm.trans found
        refine ⟨{ row with state := .granted }, ?_, .returned resuming fun _ _ found isFor =>
          accounted.returns listed grounds tookUp found isFor, fun _ => own⟩
        rw [advance, stage]
        exact Approvals.find?_returnResume.trans (Approvals.changed_self stored (by simp [resuming]))
    | settleFinishWrites settled result =>
        rw [stage] at staged
        obtain ⟨listed, grounds, tookUp, _, found, resuming⟩ := staged
        obtain rfl : settled = id := by simpa [guarding, stage] using own
        cases stored.symm.trans found
        cases failNext : shared.failNextFinish with
        | true =>
            refine kept ?_
            rw [advance, stage]
            simp [Shared.finishResume, Approvals.writeFinish, failNext]
        | false =>
            refine ⟨row.consumedBy (.ok result), ?_, accounted.consumes listed grounds tookUp resuming,
              fun _ => own⟩
            rw [advance, stage]
            dsimp only [Shared.finishResume]
            rw [Approvals.find?_writeFinish, failNext]
            exact Approvals.changed_self stored (by simp [resuming])
    | settleReads | settleFinishes => exact kept (by rw [advance, stage])
    | settleEnds =>
        refine kept ?_
        rw [advance, stage]
        rfl
    | _ => simp [guarding, stage] at own
  · refine ⟨row, ?_, .kept, fun changed => absurd rfl changed⟩
    exact ((pass.advance_approvals shared).row_of_ne own).trans stored

end Rows

section Runs

/-- The gateway was just opened, over any database. -/
def Gateway.IsOpened (config : Config) (gateway : Gateway) : Prop :=
  ∃ (stored : Shared) (runner : RunnerRef) (link : RunnerLink),
    gateway = { shared := stored.opened config runner link }

def Gateway.actsFirmly (gateway : Gateway) : Event → Bool
  | .continues index env =>
      match gateway.tasks.lookup index with
      | some (.recovery pass) => pass.actsFirmly gateway.shared env
      | _ => true
  | _ => true

def ActsFirmly (gateway : Gateway) (label : Label) : Prop :=
  gateway.actsFirmly label.event = true

/-- What holds of a gateway whose reconciliations act firmly. -/
structure Settling (gateway : Gateway) : Prop where
  linked : gateway.Linked
  guarded : Guarded gateway
  passes {index : Nat} {pass : Pass} (running : gateway.tasks.lookup index = some (.recovery pass)) :
    pass.Accounted gateway.shared

variable {task : Task}

theorem Task.advance_recovery {pass : Pass}
    (stage : (task.advance config shared env).stage = some (.recovery pass)) :
    ∃ earlier, task = .recovery earlier := by
  cases task with
  | recovery earlier => exact ⟨earlier, rfl⟩
  | _ =>
      dsimp only [Task.advance] at stage
      split at stage <;> cases stage

variable {index : Nat}

theorem Gateway.step_runner {event : Event} {report : Report}
    (stepped : before.step config event = some (report, after))
    (running : after.tasks.lookup index = some task) : after.shared.runner = before.shared.runner := by
  cases Gateway.step_cases stepped with
  | started => rfl
  | outside changed => cases changed <;> rfl
  | continued =>
      rw [Gateway.setTask_shared]
      exact (Task.advance_surroundings _ _).runner
  | dropped =>
      unfold Gateway.dropTask
      split
      · rw [Gateway.setTask_shared]
        rfl
      · rw [Gateway.setTask_shared]
  | reopened => contradiction

namespace Settling

theorem passes_step (holds : Settling before) (firm : ActsFirmly before label)
    (stepped : before.step config label.event = some (label.report, after)) {pass : Pass}
    (running : after.tasks.lookup index = some (.recovery pass)) : pass.Accounted after.shared := by
  cases Gateway.step_task stepped running with
  | started starts =>
      cases starts
      exact ⟨fun isTaken => absurd isTaken List.not_mem_nil,
        fun linked => absurd linked List.not_mem_nil, rfl⟩
  | kept ran other =>
      obtain ⟨held, turn, holder⟩ := Gateway.step_recordsTurn holds.linked stepped
      have apart {id : String} (guards : pass.guarding = some id) (moved : Nat) (env : Environment)
          (mover : Task) (event : label.event = .continues moved env)
          (moves : before.tasks.lookup moved = some mover) : mover.guarding ≠ some id := fun also => by
        cases holds.guarded.single ran guards moves also
        exact other env event
      refine (holds.passes ran).keep (Gateway.step_runner stepped running) turn.later
        (fun id guards tookUp processId record stored isFor => ?_) fun id guards resumed => ?_
      · obtain ⟨earlier, found, itsApproval⟩ := turn.known stored isFor fun isHeld => by
          obtain ⟨moved, env, mover, event, moves, also⟩ := holder id isHeld
          exact apart guards moved env mover event moves also
        exact tookUp processId earlier found itsApproval
      · obtain ⟨row, stored, resuming⟩ := resumed
        exact ⟨row, Gateway.step_row holds.linked stepped stored (by simp [resuming]) (apart guards),
          resuming⟩
  | advanced _ _ continued ran stage shared =>
      obtain ⟨_, rfl⟩ := Task.advance_recovery stage
      have turn := Task.recovery_advance stage
      rw [turn] at stage shared
      cases stage
      rw [shared]
      refine Pass.advance_accounted (holds.passes ran) ?_
      simpa [ActsFirmly, Gateway.actsFirmly, continued, ran] using firm

theorem step (holds : Settling before)
    (stepped : ((gatewaySystem config).restrict ActsFirmly).step before label after) :
    Settling after := by
  obtain ⟨firm, stepped⟩ := stepped
  exact ⟨holds.linked.step stepped, holds.guarded.step stepped, holds.passes_step firm stepped⟩

theorem initial (opened : gateway.IsOpened config) : Settling gateway := by
  obtain ⟨_, _, _, rfl⟩ := opened
  exact ⟨fun index task running => by contradiction, ⟨nofun, nofun⟩, fun running => by contradiction⟩

end Settling

/-- A section of a reconciliation gives an approval back only when every execution recorded for it is
recorded as not started, consumes it only with an execution of its own that the Runner created, and
leaves every other approval as it is. -/
theorem reconciliation_settles_what_it_knows (opened : before.IsOpened config)
    (run : ((gatewaySystem config).restrict ActsFirmly).Run before trace gateway) {index : Nat}
    {pass : Pass} (running : gateway.tasks.lookup index = some (.recovery pass)) {report : Report}
    (stepped : gateway.step config (.continues index env) = some (report, after)) {row : ApprovalRow}
    (stored : gateway.shared.approvals.find? id = some row) :
    ∃ next, after.shared.approvals.find? id = some next ∧ SettledRow gateway.shared pass id row next ∧
      (next ≠ row → ∀ other task, gateway.tasks.lookup other = some task →
        task.guarding = some id → other = index) := by
  have holds : Settling gateway := run.keeps Settling (fun stepped holds => holds.step stepped)
    (Settling.initial opened)
  generalize is : Event.continues index env = event at stepped
  cases Gateway.step_cases stepped with
  | @continued moved moves task fresh ran =>
      cases is
      cases running.symm.trans ran
      rw [Gateway.setTask_shared]
      dsimp only [Task.advance]
      split
      · exact ⟨row, stored, .kept, fun changed => absurd rfl changed⟩
      · obtain ⟨next, found, settled, own⟩ := Pass.advance_settledRow (holds.passes running) stored
        exact ⟨next, found, settled, fun changed other task alsoRunning alsoHolds =>
          holds.guarded.single alsoRunning alsoHolds running (own changed)⟩
  | started _ other | outside _ other => exact absurd is.symm (other index env)
  | dropped | reopened => contradiction

def Gateway.pass? (gateway : Gateway) (index : Nat) : Option Pass :=
  match gateway.tasks.lookup index with
  | some (.recovery pass) => some pass
  | _ => none

theorem Gateway.pass?_eq_some {pass : Pass} (found : gateway.pass? index = some pass) :
    gateway.tasks.lookup index = some (.recovery pass) := by
  unfold pass? at found
  split at found
  next running =>
    cases found
    exact running
  · contradiction

/-- What is seen of a section of the reconciliation that is task `index`: the approval `a` before and
after it, and an execution. -/
def Gateway.settles? (config : Config) (gateway : Gateway) (index : Nat) (processId : String) :
    Option (Option ApprovalState × Option ApprovalState × Option ProcessPhase) :=
  (gateway.pass? index).bind fun _ =>
    (gateway.step config (.continues index {})).map fun stepped =>
      ((gateway.shared.approvals.find? "a").map ApprovalRow.state,
        (stepped.2.shared.approvals.find? "a").map ApprovalRow.state,
        (gateway.shared.processes.find? processId).map ProcessRecord.phase)

/-- The execution of an interrupted resume never reached the Runner: its approval is given back. -/
theorem interrupted_approval_is_given_back :
    let config : Config := { independent := true, hash := fun _ => "f", unreadableParams := fun _ => "" }
    let runner : RunnerRef := { bootId := none, pid := 1, startedAtMs := 0, nonce := "n" }
    let linked (epoch : Nat) : RunnerLink := .linked (some { epoch := epoch })
    let start : Gateway :=
      { shared := Shared.opened config { runner := runner, link := linked 1 } runner (linked 1) }
    let events : List Event :=
      [.createApproval "a" (.execCommand { workspaceId := "w", command := ["make"] }),
        .resolveApproval "a" .grant, .operationResume "a"] ++ turns 0 6 ++
      [.continues 0 { newId := "p1" }] ++ turns 0 4 ++
      [.reopens runner (linked 2), .reconciles { epoch := 2 }] ++ turns 1 3 ++
      [.continues 1 { answers := { recalled := .ok [("p1", .notReceived)] } }] ++ turns 1 5
    ∃ trace last pass row next,
      replay (Gateway.stepWhere config Gateway.actsFirmly) Label.mk start events = some (trace, last) ∧
      last.settles? config 1 "p1" = some (some .resuming, some .granted, some .terminal) ∧
      SettledRow last.shared pass "a" row next := by
  intro config runner linked start events
  have seen : (replay (Gateway.stepWhere config Gateway.actsFirmly) Label.mk start events).map
      (fun run => run.2.settles? config 1 "p1") =
        some (some (some .resuming, some .granted, some .terminal)) := by decide +kernel
  obtain ⟨⟨trace, last⟩, replayed, settles⟩ := Option.map_eq_some_iff.mp seen
  obtain ⟨pass, isPass, moved⟩ := Option.bind_eq_some_iff.mp settles
  obtain ⟨⟨_, _⟩, stepped, same⟩ := Option.map_eq_some_iff.mp moved
  obtain ⟨row, stored, _⟩ := Option.map_eq_some_iff.mp (Prod.mk.inj same).1
  obtain ⟨next, _, settled, _⟩ := reconciliation_settles_what_it_knows
    ⟨{ runner := runner, link := linked 1 }, runner, linked 1, rfl⟩
    (Gateway.run_of_replayWhere replayed) (Gateway.pass?_eq_some isPass) stepped stored
  exact ⟨trace, last, pass, row, next, replayed, settles, settled⟩

/-- An approval is given back while an execution of it, sent after the reconciliation looked, is
dispatching; and while the execution that the reconciliation found not started is not recorded so,
because its Runner was lost before. -/
theorem approval_is_given_back_with_executions_unsettled :
    let config : Config := { independent := true, hash := fun _ => "f", unreadableParams := fun _ => "" }
    (∃ before trace gateway, before.IsOpened config ∧ (gatewaySystem config).Run before trace gateway ∧
      gateway.settles? config 1 "p2" = some (some .resuming, some .granted, some .dispatching)) ∧
    ∃ before trace gateway, before.IsOpened config ∧ (gatewaySystem config).Run before trace gateway ∧
      gateway.settles? config 1 "p1" = some (some .resuming, some .granted, some .unknown) := by
  intro config
  let runner : RunnerRef := { bootId := none, pid := 1, startedAtMs := 0, nonce := "n" }
  let linked (epoch : Nat) : RunnerLink := .linked (some { epoch := epoch })
  let start : Gateway :=
    { shared := Shared.opened config { runner := runner, link := linked 1 } runner (linked 1) }
  have raced : (start.replay config
      ([.createApproval "a" (.execCommand { workspaceId := "w", command := ["make"] }),
        .resolveApproval "a" .grant, .operationResume "a"] ++ turns 0 6 ++
      [.continues 0 { newId := "p1" }] ++ turns 0 2 ++
      [.links (linked 2), .reconciles { epoch := 2 }] ++ turns 1 1 ++ turns 0 1 ++ turns 1 2 ++
      turns 0 1 ++ [.continues 0 { exec := .error (.execution
        { code := .staleController, message := "a later controller claimed the Runner" }) }] ++
      turns 0 6 ++ [.continues 1 { answers := { recalled := .ok [("p1", .notReceived)] } }] ++
      turns 1 3 ++ [.operationResume "a"] ++ turns 2 6 ++ [.continues 2 { newId := "p2" }] ++
      turns 2 4 ++ [.cancels 2] ++ turns 1 2)).map (fun run => run.2.settles? config 1 "p2") =
        some (some (some .resuming, some .granted, some .dispatching)) := by decide +kernel
  have lost : (start.replay config
      ([.createApproval "a" (.execCommand { workspaceId := "w", command := ["make"] }),
        .resolveApproval "a" .grant, .operationResume "a"] ++ turns 0 6 ++
      [.continues 0 { newId := "p1" }] ++ turns 0 4 ++
      [.reopens runner (linked 2), .reconciles { epoch := 2 }] ++ turns 1 3 ++
      [.continues 1 { answers := { recalled := .ok [("p1", .notReceived)] } }, .losesRunner] ++
      turns 1 5)).map (fun run => run.2.settles? config 1 "p1") =
        some (some (some .resuming, some .granted, some .unknown)) := by decide +kernel
  obtain ⟨⟨trace, gateway⟩, replayed, settles⟩ := Option.map_eq_some_iff.mp raced
  obtain ⟨⟨other, last⟩, alsoReplayed, alsoSettles⟩ := Option.map_eq_some_iff.mp lost
  have opened : start.IsOpened config := ⟨{ runner := runner, link := linked 1 }, runner, linked 1, rfl⟩
  exact ⟨⟨start, trace, gateway, opened, Gateway.run_of_replay replayed, settles⟩,
    start, other, last, opened, Gateway.run_of_replay alsoReplayed, alsoSettles⟩

end Runs

end CodeSpace.Server
