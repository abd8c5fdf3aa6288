import CodeSpace.Server.LedgerInvariant

namespace CodeSpace.Server

open Data Domain Store

/-! Patches under an operation key: the key names one live operation, a second request under it is
answered from the ledger, and the patch is sent once. -/

variable {config : Config} {env : Environment} {before after gateway : Gateway} {trace : List Label}
  {label : Label} {index : Nat} {call : PatchCall} {operationId : String} {shared : Shared}
  {task : Task}

def Send.key? (send : Send) : Option String :=
  match send.request with
  | .applyPatch _ params => params.operationKey
  | .exec _ _ => none

/-- The patches sent under a key, without the attempts that ended with a refusal of a request that was
never sent. -/
def keySends (trace : List Label) (key : String) : List Send :=
  (sends trace).filter fun send => send.key? = some key && send.request.id ∉ disproved trace

/-- Every patch under the key that was not disproved still has its operation. -/
theorem Ledger.keySends_held {key : String} {send : Send} (ledger : Ledger config trace gateway)
    (isSent : send ∈ keySends trace key) :
    ∃ row, gateway.shared.operations.find? send.request.id = some row ∧
      row.operationKey = some key ∧ send.patched? = some send.request.id := by
  obtain ⟨_, _, request⟩ := send
  obtain ⟨earlier, chosen⟩ := List.mem_filter.mp isSent
  cases request with
  | applyPatch operationId params =>
      obtain ⟨named, acted⟩ : params.operationKey = some key ∧ operationId ∉ disproved trace := by
        obtain ⟨named, acted⟩ := Bool.and_eq_true_iff.mp chosen
        exact ⟨of_decide_eq_true named, of_decide_eq_true acted⟩
      obtain ⟨row, stored, begun⟩ := ledger.held earlier rfl acted
      exact ⟨row, stored, begun.key.trans named, rfl⟩
  | exec => simp [Send.key?] at chosen

theorem Ledger.keySends_length (ledger : Ledger config trace gateway) (key : String) :
    (keySends trace key).length ≤ 1 := by
  have sameId {send other : Send} (isSent : send ∈ keySends trace key)
      (alsoSent : other ∈ keySends trace key) : send.request.id = other.request.id := by
    obtain ⟨_, stored, named, _⟩ := ledger.keySends_held isSent
    obtain ⟨_, alsoStored, alsoNamed, _⟩ := ledger.keySends_held alsoSent
    exact ledger.keys stored alsoStored named alsoNamed
  have distinct : ((keySends trace key).filterMap Send.patched?).Nodup :=
    ledger.once.sublist (List.filter_sublist.filterMap Send.patched?)
  cases listed : keySends trace key with
  | nil => exact Nat.zero_le 1
  | cons first rest =>
      cases rest with
      | nil => exact Nat.le_refl 1
      | cons second =>
          have isFirst : first ∈ keySends trace key := by simp [listed]
          have isSecond : second ∈ keySends trace key := by simp [listed]
          obtain ⟨_, _, _, patchedFirst⟩ := ledger.keySends_held isFirst
          obtain ⟨_, _, _, patchedSecond⟩ := ledger.keySends_held isSecond
          rw [listed, List.filterMap_cons_some patchedFirst, List.filterMap_cons_some patchedSecond,
            sameId isFirst isSecond] at distinct
          simp at distinct

def PatchStage.isAnswered : PatchStage → Bool
  | .returns _ => true
  | _ => false

/-- The request has sent all that it ever sends. -/
def ResumeStage.isSpent : ResumeStage → Bool
  | .patches inner => inner.stage.isAnswered
  | .commits _ | .commitWrites _ | .ends _ | .answers _ => true
  | _ => false

def Task.isSpent : Task → Bool
  | patch call => call.stage.isAnswered
  | resume call => call.stage.isSpent
  | exec _ | recovery _ => false

/-- The task was started and is spent, if it is still there. -/
structure Gateway.Spent (gateway : Gateway) (index : Nat) : Prop where
  started : index < gateway.nextTask
  spent {task : Task} (running : gateway.tasks.lookup index = some task) : task.isSpent = true

theorem ResumeCall.advance_spent {call : ResumeCall} (shared : Shared)
    (spent : call.stage.isSpent = true) : (call.advance config shared env).report = .quiet ∧
      (call.advance config shared env).stage.isSpent = true := by
  obtain ⟨_, stage⟩ := call
  cases stage with
  | patches inner =>
      obtain ⟨_, _, stage⟩ := inner
      cases stage with
      | returns => exact ⟨rfl, rfl⟩
      | _ => contradiction
  | commits =>
      refine ⟨rfl, ?_⟩
      dsimp only [ResumeCall.advance, ResumeCall.afterRead]
      split <;> rfl
  | commitWrites | ends | answers => exact ⟨rfl, rfl⟩
  | _ => contradiction

theorem Task.advance_spent (shared : Shared) (spent : task.isSpent = true) :
    (task.advance config shared env).report = .quiet ∧
      ∀ next ∈ (task.advance config shared env).stage, next.isSpent = true := by
  cases task with
  | patch call =>
      obtain ⟨_, resume, stage⟩ := call
      cases stage with
      | returns => exact ⟨rfl, fun next left => by contradiction⟩
      | _ => contradiction
  | resume call =>
      have spentCall : (call.advance config shared env).report = .quiet ∧
          (call.advance config shared env).stage.isSpent = true := call.advance_spent shared spent
      dsimp only [Task.advance]
      split
      · exact ⟨rfl, fun next left => by contradiction⟩
      · refine ⟨spentCall.1, fun next left => ?_⟩
        cases left
        exact spentCall.2
  | exec | recovery => contradiction

namespace Gateway

/-- Every task goes by a number that was given out. -/
def Numbered (gateway : Gateway) : Prop :=
  ∀ index task, gateway.tasks.lookup index = some task → index < gateway.nextTask

theorem Numbered.startTask (numbered : gateway.Numbered) : (gateway.startTask task).Numbered := by
  intro index found running
  by_cases same : index = gateway.nextTask
  · exact same ▸ Nat.lt_succ_self _
  · rw [Gateway.startTask, AList.lookup_insert_ne same] at running
    exact Nat.lt_succ_of_lt (numbered index found running)

theorem Numbered.setTask {task : Option Task} (numbered : gateway.Numbered)
    (started : index < gateway.nextTask) : (gateway.setTask index shared task).Numbered := by
  intro other found running
  by_cases same : other = index
  · subst same
    cases task <;> exact started
  · cases task with
    | none =>
        rw [Gateway.setTask, AList.lookup_erase_ne same] at running
        exact numbered other found running
    | some =>
        rw [Gateway.setTask, AList.lookup_insert_ne same] at running
        exact numbered other found running

theorem Numbered.step (numbered : before.Numbered)
    (stepped : (gatewaySystem config).step before label after) : after.Numbered := by
  obtain ⟨_, _⟩ := label
  cases step_cases stepped with
  | started => exact numbered.startTask
  | outside => exact numbered
  | continued _ running => exact numbered.setTask (numbered _ _ running)
  | dropped running =>
      unfold Gateway.dropTask
      split <;> exact numbered.setTask (numbered _ _ running)
  | reopened => exact fun index task running => by contradiction

theorem Numbered.of_run (isInitial : (gatewaySystem config).initial before)
    (run : (gatewaySystem config).Run before trace after) : after.Numbered := by
  refine run.keeps Numbered (fun stepped numbered => numbered.step stepped) ?_
  obtain ⟨_, _, rfl⟩ := isInitial
  exact fun index task running => by contradiction

theorem Spent.of_tasks (spent : before.Spent index) (tasks : after.tasks = before.tasks)
    (nextTask : after.nextTask = before.nextTask) : after.Spent index where
  started := nextTask ▸ spent.started
  spent running := spent.spent (tasks ▸ running)

theorem Spent.startTask (spent : gateway.Spent index) : (gateway.startTask task).Spent index where
  started := Nat.lt_succ_of_lt spent.started
  spent {other} running := by
    have apart : index ≠ gateway.nextTask := Nat.ne_of_lt spent.started
    refine spent.spent ?_
    simpa only [Gateway.startTask, AList.lookup_insert_ne apart] using running

variable {other : Nat}

theorem Spent.setTask {task : Option Task} (spent : gateway.Spent index)
    (left : other = index → ∀ next ∈ task, next.isSpent = true) :
    (gateway.setTask other shared task).Spent index := by
  cases task with
  | none =>
      refine ⟨spent.started, fun {found} running => spent.spent ?_⟩
      by_cases same : index = other
      · subst same
        simp [Gateway.setTask] at running
      · simpa only [Gateway.setTask, AList.lookup_erase_ne same] using running
  | some =>
      refine ⟨spent.started, fun {found} running => ?_⟩
      by_cases same : index = other
      · subst same
        rw [Gateway.setTask, AList.lookup_insert] at running
        exact left rfl found running
      · rw [Gateway.setTask, AList.lookup_insert_ne same] at running
        exact spent.spent running

theorem Spent.dropTask (spent : gateway.Spent index) : (gateway.dropTask other task).Spent index := by
  unfold Gateway.dropTask
  split <;> exact spent.setTask fun _ next left => by contradiction

theorem Spent.step (spent : before.Spent index)
    (stepped : (gatewaySystem config).step before label after) :
    after.Spent index ∧ ∀ env, label.event = .continues index env → label.report = .quiet := by
  obtain ⟨_, _⟩ := label
  cases step_cases stepped with
  | started _ other => exact ⟨spent.startTask, fun env same => absurd same (other _ _)⟩
  | outside _ other => exact ⟨spent.of_tasks rfl rfl, fun env same => absurd same (other _ _)⟩
  | @continued other env task fresh running =>
      have quiet (same : other = index) : (task.advance config before.shared env).report = .quiet ∧
          ∀ next ∈ (task.advance config before.shared env).stage, next.isSpent = true :=
        task.advance_spent before.shared (spent.spent (same ▸ running))
      refine ⟨spent.setTask fun same => (quiet same).2, fun _ same => ?_⟩
      cases same
      exact (quiet rfl).1
  | dropped => exact ⟨spent.dropTask, fun env same => by contradiction⟩
  | reopened =>
      exact ⟨⟨spent.started, fun running => by contradiction⟩, fun env same => by contradiction⟩

/-- Nothing is sent by a task that is spent. -/
theorem Spent.run (spent : before.Spent index) (ran : (gatewaySystem config).Run before trace after) :
    ∀ label ∈ trace, ∀ env, label.event = .continues index env → label.report = .quiet := by
  induction ran with
  | refl => exact fun label isLabel => by contradiction
  | cons head _ ih =>
      obtain ⟨still, quiet⟩ := spent.step head
      intro label isLabel
      rcases List.mem_cons.mp isLabel with rfl | later
      · exact quiet
      · exact ih still label later

end Gateway

section Results

/-- Every result names the operation it is given to. -/
structure NamedResults (trace : List Label) (gateway : Gateway) : Prop where
  ready {index : Nat} {call : PatchCall} {operationId : String} {result : ApplyPatchResult}
    (running : gateway.patchCall index = some call)
    (stage : call.stage = .finishes operationId result) : result.operationId = operationId
  given {operationId : String} {result : ApplyPatchResult}
    (isGiven : (operationId, result) ∈ finishes trace) : result.operationId = operationId

theorem finishes_snoc :
    finishes (trace ++ [label]) = finishes trace ++ label.report.finished?.toList := by
  simp only [finishes, List.filterMap_append]
  cases given : label.report.finished? <;> simp [given]

variable {result : ApplyPatchResult}

theorem PatchCall.advance_finishes (shared : Shared)
    (stage : (call.advance config shared env).stage = .finishes operationId result) :
    result.operationId = operationId := by
  obtain ⟨_, _, current⟩ := call
  have unanswered {next : PatchStage} {outcome : Except ErrorBody Unit}
      (is : PatchCall.after next outcome = .finishes operationId result) :
      next = .finishes operationId result := by
    cases outcome with
    | ok => exact is
    | error => contradiction
  cases current with
  | waits | asks =>
      dsimp only [PatchCall.advance] at stage
      split at stage <;> contradiction
  | admits | marks | finishes =>
      have other := unanswered stage
      contradiction
  | begins =>
      dsimp only [PatchCall.advance, PatchCall.afterBegin] at stage
      split at stage <;> contradiction
  | awaits =>
      dsimp only [PatchCall.advance, PatchCall.afterAnswer] at stage
      split at stage
      · cases stage
        rfl
      · split at stage <;> contradiction
      all_goals
        cases stage
        rfl
  | _ => contradiction

theorem PatchCall.advance_finished (shared : Shared)
    (reported : (call.advance config shared env).report = .finished operationId result) :
    call.stage = .finishes operationId result ∨ result = rejected operationId := by
  obtain ⟨_, _, stage⟩ := call
  cases stage with
  | awaits id =>
      have silent : (answerReport id env.patch).isPatch = false := answerReport_isPatch _
      dsimp only [PatchCall.advance] at reported
      rw [reported] at silent
      contradiction
  | finishes =>
      dsimp only [PatchCall.advance, PatchCall.finishReport] at reported
      split at reported
      · cases reported
        exact .inl rfl
      · contradiction
  | rejects =>
      dsimp only [PatchCall.advance, PatchCall.finishReport] at reported
      split at reported
      · cases reported
        exact .inr rfl
      · contradiction
  | _ => contradiction

theorem NamedResults.step (named : NamedResults trace before)
    (stepped : (gatewaySystem config).step before label after) :
    NamedResults (trace ++ [label]) after := by
  have given {report : Report}
      (now : ∀ id result, report = .finished id result → result.operationId = id)
      (reported : label.report = report) {id : String} {result : ApplyPatchResult}
      (isGiven : (id, result) ∈ finishes (trace ++ [label])) : result.operationId = id := by
    rw [finishes_snoc] at isGiven
    rcases List.mem_append.mp isGiven with earlier | last
    · exact named.given earlier
    · rw [reported] at last
      cases report with
      | finished =>
          cases List.mem_singleton.mp last
          exact now _ _ rfl
      | _ => contradiction
  cases Gateway.step_ledger stepped with
  | patched index call _ _ running _ reported moved others =>
      refine ⟨fun {other found id result} isRunning stage => ?_, given ?_ reported⟩
      · have calls : CallMoved before after index call _ := ⟨running, moved, fun apart => others _ apart⟩
        rcases calls.cases isRunning with ⟨rfl, rfl⟩ | ⟨_, ran⟩
        · exact call.advance_finishes before.shared stage
        · exact named.ready ran stage
      · intro id result finished
        rcases call.advance_finished before.shared finished with ready | rfl
        · exact named.ready running ready
        · rfl
  | beside _ silent idle =>
      refine ⟨fun {other found id result} isRunning stage => ?_, given ?_ rfl⟩
      · rcases idle other found isRunning with ran | free
        · exact named.ready ran stage
        · rw [stage] at free
          contradiction
      · intro id result finished
        rw [finished] at silent
        contradiction

theorem NamedResults.of_run (isInitial : (gatewaySystem config).initial before)
    (run : (gatewaySystem config).Run before trace after) : NamedResults trace after := by
  have start : NamedResults [] before := by
    obtain ⟨_, _, rfl⟩ := isInitial
    exact ⟨fun running => by contradiction, fun isGiven => by contradiction⟩
  exact run.records NamedResults (fun named stepped => named.step stepped) start

theorem NamedResults.lastResult_operationId
    (named : NamedResults trace gateway) (last : lastResult trace operationId = some result) :
    result.operationId = operationId := by
  obtain ⟨_, _, listed, _⟩ := List.lookup_eq_some_iff.mp last
  refine named.given (List.mem_reverse.mp ?_)
  rw [listed]
  exact List.mem_append_right _ (.head _)

end Results

section Answers

/-- The operation's last result, or what is known while there is none. -/
def knownResult (trace : List Label) (operationId : String) : ApplyPatchResult :=
  (lastResult trace operationId).getD (unknownResult operationId)

/-- What a patch is answered that begins under the key of a live operation. -/
def answerFrom (config : Config) (known : ApplyPatchResult) (row : OperationRow)
    (params : ApplyPatchParams) (hint : Option CoordinationHint) :
    Except ErrorBody ApplyPatchResult :=
  if row.fingerprint = config.fingerprint (.applyPatch params) then
    .ok (withHint { known with replayed := true } params.workId hint)
  else .error Operations.keyConflict

/-- A patch is answered at once: its request sends nothing, then or later, and nothing else changes. -/
structure AnsweredAtOnce (config : Config) (before after : Gateway) (index : Nat) (call : PatchCall)
    (outcome : Except ErrorBody ApplyPatchResult) : Prop where
  answered : after.patchCall index = some { call with stage := .returns outcome }
  shared : after.shared = { before.shared with minted := after.shared.minted }
  others {other : Nat} (apart : other ≠ index) : after.tasks.lookup other = before.tasks.lookup other
  unsent {trace : List Label} {last : Gateway} (ran : (gatewaySystem config).Run after trace last) :
    ∀ label ∈ trace, ∀ env, label.event = .continues index env → label.report = .quiet

variable {epoch : Option Nat}

theorem Task.advance_answered {next : Shared} {outcome : Except ErrorBody ApplyPatchResult}
    (patching : task.patching = some call) (stage : call.stage = .begins epoch)
    (advanced : call.advance config shared env =
      { report := .quiet, shared := next, stage := .returns outcome }) :
    ∃ left, task.advance config shared env = { report := .quiet, shared := next, stage := some left } ∧
      left.patching = some { call with stage := .returns outcome } ∧ left.isSpent = true := by
  cases task with
  | patch =>
      cases patching
      refine ⟨.patch { call with stage := .returns outcome }, ?_, rfl, rfl⟩
      simp only [Task.advance, stage, advanced]
  | resume other =>
      obtain ⟨id, current⟩ := other
      cases current with
      | patches =>
          cases patching
          refine ⟨.resume ⟨id, .patches { call with stage := .returns outcome }⟩, ?_, rfl, rfl⟩
          simp only [Task.advance, ResumeCall.advance, stage, advanced]
      | _ => contradiction
  | exec | recovery => contradiction

variable {row : OperationRow}

/-- A patch that comes to begin under the key of a live operation is answered by the ledger. -/
theorem Ledger.answers {key : String} (ledger : Ledger config trace gateway) (numbered : gateway.Numbered)
    (running : gateway.patchCall index = some call) (stage : call.stage = .begins epoch)
    (named : call.params.operationKey = some key)
    (live : gateway.shared.operations.find? operationId = some row)
    (holds : row.operationKey = some key) (fresh : env.newId ∉ gateway.shared.minted) :
    ∃ next, gateway.step config (.continues index env) = some (.quiet, next) ∧
      AnsweredAtOnce config gateway next index call
        (answerFrom config (knownResult trace operationId) row call.params env.hint) := by
  obtain ⟨task, isTask, patching⟩ := Option.bind_eq_some_iff.mp running
  have own : row.operationId = operationId := (Table.find?_eq_some.mp live).2
  obtain ⟨other, loaded⟩ : ∃ other, gateway.shared.operations.loadByKey key = some other := by
    cases loaded : gateway.shared.operations.loadByKey key with
    | some other => exact ⟨other, rfl⟩
    | none => exact absurd holds (Operations.loadByKey_eq_none loaded live)
  obtain ⟨alsoLive, alsoHolds⟩ := Operations.loadByKey_eq_some loaded
  have same : other = row := by
    have sameId := ledger.keys alsoLive live alsoHolds holds
    rw [sameId, live] at alsoLive
    exact (Option.some.inj alsoLive).symm
  subst same
  have read : other.result = knownResult trace operationId := by
    rw [(ledger.results live).read, own, knownResult]
  have advanced : call.advance config gateway.shared env =
      { report := .quiet
        shared := { gateway.shared with minted := env.newId :: gateway.shared.minted }
        stage := .returns
          (answerFrom config (knownResult trace operationId) other call.params env.hint) } := by
    simp only [PatchCall.advance, stage, Operations.begin, named, Option.bind_some, loaded, answerFrom]
    by_cases agrees : other.fingerprint = config.fingerprint (.applyPatch call.params)
    · simp only [agrees, ne_eq, not_true_eq_false, if_false, if_true, PatchCall.afterBegin,
        OperationRow.intoStored, read]
    · simp only [agrees, ne_eq, not_false_eq_true, if_true, if_false, PatchCall.afterBegin]
  obtain ⟨left, turn, answered, spent⟩ := Task.advance_answered patching stage advanced
  have leftSpent (shared : Shared) : (gateway.setTask index shared (some left)).Spent index := by
    refine ⟨numbered index task isTask, fun {found} isFound => ?_⟩
    rw [Gateway.setTask, AList.lookup_insert] at isFound
    cases isFound
    exact spent
  refine ⟨gateway.setTask index { gateway.shared with minted := env.newId :: gateway.shared.minted }
    (some left), ?_, ?_⟩
  · simp only [Gateway.step, fresh, if_false, isTask, Option.map_some, turn]
  constructor
  case answered =>
    rw [Gateway.patchCall_setTask]
    exact answered
  case shared => rfl
  case others => exact fun apart => AList.lookup_insert_ne apart
  case unsent =>
    exact fun ran => (leftSpent _).run ran

theorem PatchCall.advance_removes (live : shared.operations.find? operationId = some row)
    (gone : (call.advance config shared env).shared.operations.find? operationId = none) :
    row.finishedAt = none := by
  have still (same : (call.advance config shared env).shared.operations = shared.operations) :
      row.finishedAt = none := by
    rw [same, live] at gone
    contradiction
  have finishing {id : String} {result : ApplyPatchResult}
      (same : (call.advance config shared env).shared.operations =
        (shared.operations.finish id result shared.now).2) : row.finishedAt = none := by
    rw [same, Operations.find?_finish, live] at gone
    contradiction
  obtain ⟨params, _, stage⟩ := call
  cases stage with
  | begins =>
      obtain ⟨_, _, begun, spec⟩ := PatchCall.begin_cases config shared env params
      simp only [PatchCall.advance, begun] at gone
      cases spec with
      | fresh _ inserted =>
          rw [Table.find?_insert? inserted] at gone
          split at gone
          · contradiction
          · cases live.symm.trans gone
      | _ =>
          cases live.symm.trans gone
  | finishes | rejects => exact finishing rfl
  | abandons id =>
      dsimp only [PatchCall.advance] at gone
      rw [Operations.find?_abandon, live] at gone
      have deleted : Operations.unfinished id row = true := by simpa using gone
      simp only [Operations.unfinished, Bool.and_eq_true, Option.isNone_iff_eq_none] at deleted
      exact deleted.2
  | _ => exact still rfl

/-- A step that removes an operation finds it without a result. -/
theorem Ledger.removed (ledger : Ledger config trace before)
    (stepped : (gatewaySystem config).step before label after)
    (live : before.shared.operations.find? operationId = some row)
    (gone : after.shared.operations.find? operationId = none) :
    row.finishedAt = none ∧ lastResult trace operationId = none := by
  have unfinished : row.finishedAt = none := by
    cases Gateway.step_ledger stepped with
    | beside frame =>
        rw [frame.operations, live] at gone
        contradiction
    | patched _ call _ _ _ left => exact call.advance_removes live (left ▸ gone)
  have held := (ledger.results live).finished
  rw [unfinished] at held
  exact ⟨unfinished, Option.isNone_iff_eq_none.mp (by simpa using held)⟩

end Answers

/-- In every run of patches, answers, cancellations and crashes: a key names one live operation. A
request that comes to begin under it never reaches the Runner and is answered with the operation's last
result, or as unknown while it has none; when its fingerprint differs it is refused and nothing changes.
Only an operation without a result is ever removed, and the patches of a key that were sent are at most
one besides those refused as never sent. -/
theorem keyed_patch_is_sent_once {start last : Gateway} (isInitial : (gatewaySystem config).initial start)
    (run : (gatewaySystem config).Run start trace last) :
    KeysDistinct last.shared.operations ∧
    (∀ index call epoch env key operationId row, last.patchCall index = some call →
      call.stage = .begins epoch → call.params.operationKey = some key →
      last.shared.operations.find? operationId = some row → row.operationKey = some key →
      env.newId ∉ last.shared.minted →
      ∃ next, last.step config (.continues index env) = some (.quiet, next) ∧
        AnsweredAtOnce config last next index call
          (answerFrom config (knownResult trace operationId) row call.params env.hint)) ∧
    (∀ operationId, (knownResult trace operationId).operationId = operationId) ∧
    (∀ label next operationId row, (gatewaySystem config).step last label next →
      last.shared.operations.find? operationId = some row →
      next.shared.operations.find? operationId = none →
      row.finishedAt = none ∧ lastResult trace operationId = none) ∧
    ∀ key, (keySends trace key).length ≤ 1 := by
  have ledger := Ledger.of_run isInitial run
  have numbered := Gateway.Numbered.of_run isInitial run
  have named := NamedResults.of_run isInitial run
  refine ⟨ledger.keys, fun index call epoch env key operationId row running stage holds live held fresh =>
    ledger.answers numbered running stage holds live held fresh, fun operationId => ?_,
    fun label next operationId row stepped live gone => ledger.removed stepped live gone,
    ledger.keySends_length⟩
  unfold knownResult
  cases given : lastResult trace operationId with
  | none => rfl
  | some => exact named.lastResult_operationId given

/-- A patch is sent under a key and its answer is lost; a second request under the key is answered as
unknown. -/
theorem second_patch_is_answered :
    let config : Config := { independent := false, hash := fun _ => "f", unreadableParams := fun _ => "" }
    let params : ApplyPatchParams := { workspaceId := "w", patch := "p", operationKey := some "k" }
    let runner : RunnerRef := { bootId := none, pid := 1, startedAtMs := 0, nonce := "n" }
    let start : Gateway := { shared := { runner := runner, link := .linked none } }
    let events : List Event := [.applyPatch params, .continues 0 {}, .continues 0 {}, .continues 0 {},
      .continues 0 {}, .continues 0 { newId := "op" }, .continues 0 {}, .cancels 0, .applyPatch params,
      .continues 1 {}, .continues 1 {}, .continues 1 {}, .continues 1 {}]
    ∃ trace last next, start.replay config events = some (trace, last) ∧
      (sends trace).length = 1 ∧ (keySends trace "k").length ≤ 1 ∧
      last.step config (.continues 1 {}) = some (.quiet, next) ∧
      next.patchCall 1 = some { params := params, stage := .returns (.ok
        { status := .unknown, operationId := "op", replayed := true }) } := by
  intro config params runner start events
  obtain ⟨trace, last, row, replayed, isSent, live, holds, agrees, unknown, running, fresh⟩ :
      ∃ trace last row, start.replay config events = some (trace, last) ∧ (sends trace).length = 1 ∧
        last.shared.operations.find? "op" = some row ∧ row.operationKey = some "k" ∧
        row.fingerprint = config.fingerprint (.applyPatch params) ∧ lastResult trace "op" = none ∧
        last.patchCall 1 = some { params := params, stage := .begins none } ∧
        "" ∉ last.shared.minted :=
    ⟨_, _, _, rfl, rfl, rfl, rfl, rfl, rfl, rfl, by decide⟩
  obtain ⟨_, answers, _, _, once⟩ := keyed_patch_is_sent_once ⟨runner, .linked none, rfl⟩
    (Gateway.run_of_replay replayed)
  obtain ⟨next, stepped, answered⟩ := answers 1 _ none {} "k" "op" row running rfl rfl live holds fresh
  rw [answerFrom, if_pos agrees, knownResult, unknown] at answered
  exact ⟨trace, last, next, replayed, isSent, once "k", stepped, answered.answered⟩

end CodeSpace.Server
