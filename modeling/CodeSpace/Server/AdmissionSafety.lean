import CodeSpace.Server.Admission
import CodeSpace.Server.Reconcile

namespace CodeSpace.Server

open Data Store Transition

/-! What the gate lets start, in terms of what was done under the Claim. -/

variable {gate : Gate} {claim : RunnerClaim} {records : Except String (List ProcessRecord)}
  {bars : Bars} {reason workspaceId : String} {epoch : Nat} {answers : GateAnswers}
  {report : GateReport} {reports later : List GateReport} {state next : Recovery} {event : GateEvent}
  {link : Option RunnerClaim}

theorem Gate.takeAccount_fresh (fresh : gate.passed claim.epoch = false) :
    gate.takeAccount claim records = Gate.takeAccount {} claim records := by
  unfold takeAccount
  rw [if_neg (by simp [fresh]), if_neg (by simp [passed])]

theorem Gate.takeAccount_claimed (claim : RunnerClaim) (records : Except String (List ProcessRecord)) :
    (Gate.takeAccount {} claim records).claimed = some claim.epoch := by
  cases records <;> rfl

/-- The workspace has to do with nothing that an earlier controller left, as the gateway knows it. -/
structure Untouched (claim : RunnerClaim) (records : Except String (List ProcessRecord))
    (workspaceId : String) : Prop where
  barrier : workspaceId ∉ claim.barrier
  running : ∀ entry ∈ claim.processes, entry.running = true → entry.workspaceId ≠ workspaceId
  records : ∃ given, records = .ok given ∧ ∀ record ∈ given, record.workspaceId ≠ workspaceId

theorem Gate.takeAccount_untouched (readable : (Gate.takeAccount {} claim records).unreadable = none)
    (free : (Gate.takeAccount {} claim records).barred.lookup workspaceId = none) :
    Untouched claim records workspaceId := by
  cases records with
  | error => contradiction
  | ok given =>
      dsimp only [takeAccount] at free
      rw [if_neg (by simp [passed])] at free
      dsimp only at free
      rw [Assoc.lookup_setAll] at free
      split at free
      · contradiction
      next unrecorded =>
        rw [Assoc.lookup_setAll] at free
        split at free
        · contradiction
        next outside =>
          simp only [List.mem_append, List.mem_map, List.mem_filter, not_or, not_exists, not_and]
            at outside unrecorded
          refine ⟨outside.1, fun entry listed runs => ?_, given, rfl, unrecorded⟩
          exact outside.2 entry ⟨listed, runs⟩

theorem Gate.admitWork_ok (admitted : gate.admitWork workspaceId (some epoch) = .ok ()) :
    gate.claimed = some epoch ∧ gate.unreadable = none ∧ gate.barred.lookup workspaceId = none := by
  unfold admitWork at admitted
  dsimp only at admitted
  split at admitted
  · contradiction
  next claimed =>
    split at admitted
    · contradiction
    next readable =>
      split at admitted
      next free => exact ⟨Decidable.not_not.mp claimed, readable, free⟩
      · contradiction
      · contradiction

/-- The Claim that a task works on. -/
def Loop.claim? : Loop → Option RunnerClaim
  | .starts claim _ | .accounts claim _ | .passes claim _ => some claim
  | .waits claim => claim

def AdmissionStage.claim? : AdmissionStage → Option RunnerClaim
  | .accounts claim _ => some claim
  | _ => none

def GateReport.isSilent : GateReport → Bool
  | .accounted .. | .failed .. | .completed .. => false
  | _ => true

/-- What a step of a task that works on `claim` does to the gate. -/
inductive GateTurn (gate : Gate) (claim : Option RunnerClaim) : GateReport → Gate → Prop
  | silent {report : GateReport} (silent : report.isSilent = true) : GateTurn gate claim report gate
  | accounted {taken : RunnerClaim} {records : Except String (List ProcessRecord)}
      (works : claim = some taken) (fresh : gate.passed taken.epoch = false) :
      GateTurn gate claim (.accounted taken records) (gate.takeAccount taken records)
  | failed {passed : RunnerClaim} (works : claim = some passed) (reason : String) :
      GateTurn gate claim (.failed passed.epoch reason) (gate.failPass passed.epoch reason)
  | completed {passed : RunnerClaim} (works : claim = some passed) (bars : Bars) :
      GateTurn gate claim (.completed passed.epoch bars) (gate.closePass passed.epoch bars)

theorem Account.advance_turn (stage : Account) :
    GateTurn gate (some claim) (stage.advance gate claim answers).report
      (stage.advance gate claim answers).gate := by
  cases stage with
  | checks =>
      dsimp only [Account.advance]
      split <;> exact .silent rfl
  | reads => exact .silent rfl
  | sets =>
      dsimp only [Account.advance]
      split
      · exact .silent rfl
      next fresh => exact .accounted rfl (by simpa using fresh)

theorem PassSection.advance_turn (stage : PassSection) :
    GateTurn gate (some claim) (stage.advance link gate claim answers).report
      (stage.advance link gate claim answers).gate := by
  cases stage with
  | fails reason => exact .failed rfl reason
  | closes bars => exact .completed rfl bars
  | _ => exact .silent rfl

theorem Loop.advance_turn (loop : Loop) :
    GateTurn gate loop.claim? (loop.advance link gate answers).report
      (loop.advance link gate answers).gate := by
  cases loop with
  | starts _ stage | accounts _ stage | passes _ stage => exact stage.advance_turn
  | waits => exact .silent rfl

theorem Admission.advance_turn (admission : Admission) :
    GateTurn gate admission.stage.claim? (admission.advance link gate answers).report
      (admission.advance link gate answers).gate := by
  obtain ⟨_, _, stage⟩ := admission
  cases stage with
  | accounts _ stage => exact stage.advance_turn
  | _ => exact .silent rfl

/-- A Claim is taken into account once a later one cannot have been. -/
theorem GateTurn.claimed_le {claim : Option RunnerClaim} {after : Gate}
    (turn : GateTurn gate claim report after) (claimed : gate.claimed = some epoch) :
    ∃ newer, after.claimed = some newer ∧ epoch ≤ newer := by
  cases turn with
  | silent => exact ⟨epoch, claimed, Nat.le_refl _⟩
  | @accounted taken records works fresh =>
      refine ⟨taken.epoch, ?_, ?_⟩
      · rw [Gate.takeAccount_fresh fresh, Gate.takeAccount_claimed]
      · simp only [Gate.passed, claimed, Option.any_some, decide_eq_false_iff_not] at fresh
        omega
  | failed =>
      refine ⟨epoch, ?_, Nat.le_refl _⟩
      unfold Gate.failPass
      split <;> exact claimed
  | completed =>
      refine ⟨epoch, ?_, Nat.le_refl _⟩
      unfold Gate.closePass
      split <;> exact claimed

namespace Recovery

/-- The task that a step advances, by the Claim that it works on. -/
inductive Advances (state : Recovery) : Option RunnerClaim → Prop
  | none : Advances state none
  | loop : Advances state state.loop.claim?
  | admission {index : Nat} {admission : Admission}
      (running : state.admissions.lookup index = some admission) :
      Advances state admission.stage.claim?

theorem step_turn (stepped : state.step event = some (report, next)) :
    ∃ claim, state.Advances claim ∧ GateTurn state.gate claim report next.gate := by
  cases event with
  | claims =>
      dsimp only [step] at stepped
      split at stepped
      · cases stepped
        exact ⟨none, .none, .silent rfl⟩
      · contradiction
  | disconnects =>
      cases stepped
      exact ⟨none, .none, .silent rfl⟩
  | awakes =>
      obtain ⟨_, _, same⟩ := Option.map_eq_some_iff.mp stepped
      cases same
      exact ⟨none, .none, .silent rfl⟩
  | proceeds =>
      cases stepped
      exact ⟨state.loop.claim?, .loop, state.loop.advance_turn⟩
  | admits =>
      dsimp only [step] at stepped
      split at stepped
      · contradiction
      · cases stepped
        exact ⟨none, .none, .silent rfl⟩
  | continues =>
      obtain ⟨admission, running, same⟩ := Option.map_eq_some_iff.mp stepped
      cases same
      exact ⟨admission.stage.claim?, .admission running, admission.advance_turn⟩

/-- Every task works on a Claim of the gateway, and its epoch says which. -/
structure Known (state : Recovery) : Prop where
  distinct : (state.claims.map RunnerClaim.epoch).Nodup
  link {claim : RunnerClaim} (linked : state.link = some claim) : claim ∈ state.claims
  loop {claim : RunnerClaim} (works : state.loop.claim? = some claim) : claim ∈ state.claims
  admissions {index : Nat} {admission : Admission} {claim : RunnerClaim}
    (running : state.admissions.lookup index = some admission)
    (works : admission.stage.claim? = some claim) : claim ∈ state.claims

theorem Known.eq {other : RunnerClaim} (known : state.Known) (claimed : claim ∈ state.claims)
    (also : other ∈ state.claims) (same : claim.epoch = other.epoch) : claim = other :=
  List.inj_on_of_nodup_map known.distinct claimed also same

theorem Known.advances {works : Option RunnerClaim} (known : state.Known) (advances : state.Advances works)
    (isIt : works = some claim) : claim ∈ state.claims := by
  cases advances with
  | none => contradiction
  | loop => exact known.loop isIt
  | admission running => exact known.admissions running isIt

end Recovery

theorem Loop.advance_claim? {loop : Loop}
    (works : (loop.advance link gate answers).stage.claim? = some claim) : loop.claim? = some claim := by
  cases loop with
  | starts taken stage =>
      dsimp only [Loop.advance] at works
      cases rest : (stage.advance gate taken answers).stage with
      | none =>
          rw [rest] at works
          contradiction
      | some =>
          rw [rest] at works
          exact works
  | waits => exact works
  | accounts taken stage =>
      dsimp only [Loop.advance] at works
      cases rest : (stage.advance gate taken answers).stage <;>
        rw [rest] at works <;> exact works
  | passes taken stage =>
      dsimp only [Loop.advance] at works
      cases rest : (stage.advance link gate taken answers).stage <;>
        rw [rest] at works <;> exact works

theorem Admission.advance_claim? {admission after : Admission}
    (continues : (admission.advance link gate answers).stage = some after)
    (works : after.stage.claim? = some claim) : link = some claim ∨ admission.stage.claim? = some claim := by
  obtain ⟨_, _, stage⟩ := admission
  cases stage with
  | asks =>
      cases continues
      dsimp only at works
      split at works <;> contradiction
  | finds =>
      cases continues
      dsimp only at works
      split at works
      next found =>
        cases works
        exact .inl (Option.filter_eq_some_iff.mp found).1
      · contradiction
  | accounts taken stage =>
      cases continues
      dsimp only at works
      cases rest : (stage.advance gate taken answers).stage with
      | none =>
          rw [rest] at works
          contradiction
      | some =>
          rw [rest] at works
          exact .inr works
  | decides => contradiction

namespace Recovery

theorem Known.start (claim : RunnerClaim) : (start claim).Known where
  distinct := List.nodup_singleton _
  link linked := Option.some.inj linked ▸ List.mem_singleton_self _
  loop works := Option.some.inj works ▸ List.mem_singleton_self _
  admissions running := by
    rw [Recovery.start, AList.lookup_empty] at running
    contradiction

theorem Known.step (known : state.Known) (stepped : state.step event = some (report, next)) :
    next.Known ∧ ∀ claim ∈ state.claims, claim ∈ next.claims := by
  cases event with
  | claims =>
      dsimp only [Recovery.step] at stepped
      split at stepped
      next later =>
        cases stepped
        refine ⟨⟨?_, fun linked => ?_, fun works => .tail _ (known.loop works),
          fun running works => .tail _ (known.admissions running works)⟩, fun _ => .tail _⟩
        · refine List.nodup_cons.mpr ⟨fun taken => ?_, known.distinct⟩
          obtain ⟨earlier, listed, same⟩ := List.mem_map.mp taken
          have above := List.all_eq_true.mp later earlier listed
          rw [same] at above
          simp at above
        · cases linked
          exact List.mem_cons_self
      · contradiction
  | disconnects =>
      cases stepped
      exact ⟨⟨known.distinct, nofun, known.loop, known.admissions⟩, fun _ => id⟩
  | awakes claim =>
      obtain ⟨_, awakes, same⟩ := Option.map_eq_some_iff.mp stepped
      cases same
      refine ⟨⟨known.distinct, known.link, fun works => ?_, known.admissions⟩, fun _ => id⟩
      cases works
      unfold awake at awakes
      split at awakes
      next waits =>
        cases claim with
        | some =>
            dsimp only at awakes
            split at awakes
            next listed =>
              cases awakes
              simp only [Bool.and_eq_true, decide_eq_true_eq] at listed
              exact listed.1
            · contradiction
        | none => exact known.loop (by rw [waits]; exact awakes)
      · contradiction
  | proceeds =>
      cases stepped
      exact ⟨⟨known.distinct, known.link, fun works => known.loop (Loop.advance_claim? works),
        known.admissions⟩, fun _ => id⟩
  | admits index =>
      dsimp only [Recovery.step] at stepped
      split at stepped
      · contradiction
      · cases stepped
        refine ⟨⟨known.distinct, known.link, known.loop, fun {other admission claim} running works => ?_⟩,
          fun _ => id⟩
        by_cases same : other = index
        · rw [same, AList.lookup_insert] at running
          cases running
          contradiction
        · rw [AList.lookup_insert_ne same] at running
          exact known.admissions running works
  | continues index answers =>
      obtain ⟨admission, running, same⟩ := Option.map_eq_some_iff.mp stepped
      cases same
      refine ⟨⟨known.distinct, known.link, known.loop, fun {other after claim} continued works => ?_⟩,
        fun _ => id⟩
      dsimp only at continued
      cases rest : (admission.advance state.link state.gate answers).stage with
      | none =>
          rw [rest, Option.elim_none] at continued
          by_cases same : other = index
          · rw [same, AList.lookup_erase] at continued
            contradiction
          · rw [AList.lookup_erase_ne same] at continued
            exact known.admissions continued works
      | some =>
          rw [rest, Option.elim_some] at continued
          by_cases same : other = index
          · rw [same, AList.lookup_insert] at continued
            cases continued
            exact (Admission.advance_claim? rest works).elim known.link (known.admissions running)
          · rw [AList.lookup_insert_ne same] at continued
            exact known.admissions continued works

end Recovery

/-- What a pass of the Claim of `epoch` left in the gate: why it could not read the records, or the
workspaces that it barred. -/
def GateReport.outcome (epoch : Nat) : GateReport → Option (Except String Bars)
  | .failed of reason => if of = epoch then some (.error reason) else none
  | .completed of bars => if of = epoch then some (.ok bars) else none
  | _ => none

/-- The outcome of the latest pass of the Claim. -/
def latestOutcome (epoch : Nat) (reports : List GateReport) : Option (Except String Bars) :=
  (reports.filterMap (·.outcome epoch)).getLast?

theorem latestOutcome_append (epoch : Nat) (reports : List GateReport) (report : GateReport) :
    latestOutcome epoch (reports ++ [report]) =
      (report.outcome epoch).or (latestOutcome epoch reports) := by
  rw [latestOutcome, List.filterMap_append, List.getLast?_append, latestOutcome]
  cases isOutcome : report.outcome epoch with
  | none | some => simp [isOutcome]

def GateReport.isAccount : GateReport → Bool
  | .accounted .. => true
  | _ => false

/-- The Runner acknowledged a `Reconciled` under the epoch that names the workspace. -/
def Acknowledged (reports : List GateReport) (epoch : Nat) (workspaceId : String) : Prop :=
  ∃ workspaceIds, .told epoch workspaceIds true ∈ reports ∧ workspaceId ∈ workspaceIds

/-- The workspaces of the Claim's barrier that are left open were acknowledged. -/
def Told (reports : List GateReport) (claim : RunnerClaim) (bars : Bars) : Prop :=
  ∀ workspaceId ∈ claim.barrier, bars.lookup workspaceId = none →
    Acknowledged reports claim.epoch workspaceId

theorem Acknowledged.append (acknowledged : Acknowledged reports epoch workspaceId)
    (more : List GateReport) : Acknowledged (reports ++ more) epoch workspaceId := by
  obtain ⟨workspaceIds, told, named⟩ := acknowledged
  exact ⟨workspaceIds, List.mem_append_left _ told, named⟩

theorem Told.append (told : Told reports claim bars) (more : List GateReport) :
    Told (reports ++ more) claim bars :=
  fun workspaceId barrier isOpen => (told workspaceId barrier isOpen).append more

/-- The gate is what the Claim, and the passes of it since, left there. -/
structure Stands (reports : List GateReport) (claim : RunnerClaim)
    (records : Except String (List ProcessRecord)) (later : List GateReport) (gate : Gate) : Prop where
  claimed : gate.claimed = some claim.epoch
  latest : ∀ report ∈ later, report.isAccount = false
  stands : match latestOutcome claim.epoch later with
    | none => gate = Gate.takeAccount {} claim records
    | some (.error reason) => gate.unreadable = some reason
    | some (.ok bars) => gate.unreadable = none ∧ gate.barred = bars ∧ Told reports claim bars

namespace Stands

variable (stands : Stands reports claim records later gate)

include stands

theorem latest_append (other : report.isAccount = false) :
    ∀ found ∈ later ++ [report], found.isAccount = false := by
  intro found listed
  rcases List.mem_append.mp listed with earlier | last
  · exact stands.latest found earlier
  · rwa [List.mem_singleton.mp last]

theorem unmarked (other : report.isAccount = false) (unmarked : report.outcome claim.epoch = none) :
    Stands (reports ++ [report]) claim records (later ++ [report]) gate where
  claimed := stands.claimed
  latest := stands.latest_append other
  stands := by
    rw [latestOutcome_append, unmarked, Option.none_or]
    have now := stands.stands
    split at now
    · exact now
    · exact now
    · exact ⟨now.1, now.2.1, now.2.2.append _⟩

theorem failed (of : Nat) (reason : String) :
    Stands (reports ++ [.failed of reason]) claim records (later ++ [.failed of reason])
      (gate.failPass of reason) := by
  by_cases same : of = claim.epoch
  · rw [Gate.failPass, if_pos (by rw [stands.claimed, same])]
    refine ⟨stands.claimed, stands.latest_append rfl, ?_⟩
    rw [latestOutcome_append, GateReport.outcome, if_pos same]
    rfl
  · rw [Gate.failPass, if_neg (by simpa [stands.claimed] using Ne.symm same)]
    exact stands.unmarked rfl (if_neg same)

theorem completed {passed : RunnerClaim} (bars : Bars)
    (told : passed.epoch = claim.epoch → Told reports claim bars) :
    Stands (reports ++ [.completed passed.epoch bars]) claim records
      (later ++ [.completed passed.epoch bars]) (gate.closePass passed.epoch bars) := by
  by_cases same : passed.epoch = claim.epoch
  · rw [Gate.closePass, if_pos (by rw [stands.claimed, same])]
    refine ⟨stands.claimed, stands.latest_append rfl, ?_⟩
    rw [latestOutcome_append, GateReport.outcome, if_pos same]
    exact ⟨rfl, rfl, (told same).append _⟩
  · rw [Gate.closePass, if_neg (by simpa [stands.claimed] using Ne.symm same)]
    exact stands.unmarked rfl (if_neg same)

end Stands

structure Tracked (reports : List GateReport) (state : Recovery) : Prop where
  known : state.Known
  closing {claim : RunnerClaim} {bars : Bars} (closes : state.loop = .passes claim (.closes bars)) :
    Told reports claim bars
  stands : state.gate.claimed = none ∨ ∃ claim ∈ state.claims, ∃ records earlier later,
    reports = earlier ++ .accounted claim records :: later ∧ Stands reports claim records later state.gate

namespace Recovery

/-- What a report rests on: a pass completes in the loop, and an admission is the gate's answer. -/
inductive Reports (state : Recovery) : GateReport → Prop
  | completed {claim : RunnerClaim} {bars : Bars} {epoch : Nat}
      (closes : state.loop = .passes claim (.closes bars)) (of : claim.epoch = epoch) :
      Reports state (.completed epoch bars)
  | admitted (workspaceId : String) (epoch : Nat) :
      Reports state (.admitted workspaceId epoch (state.gate.admitWork workspaceId (some epoch)))
  | quiet : Reports state .quiet
  | read (epoch : Nat) (succeeded : Bool) : Reports state (.read epoch succeeded)
  | accounted (claim : RunnerClaim) (records : Except String (List ProcessRecord)) :
      Reports state (.accounted claim records)
  | failed (epoch : Nat) (reason : String) : Reports state (.failed epoch reason)
  | told (epoch : Nat) (workspaceIds : List String) (acknowledged : Bool) :
      Reports state (.told epoch workspaceIds acknowledged)

theorem step_reports (stepped : state.step event = some (report, next)) : state.Reports report := by
  have account (stage : Account) (claim : RunnerClaim) (answers : GateAnswers) :
      state.Reports (stage.advance state.gate claim answers).report := by
    cases stage with
    | reads => exact .read ..
    | checks =>
        dsimp only [Account.advance]
        split <;> exact .quiet
    | sets =>
        dsimp only [Account.advance]
        split
        · exact .quiet
        · exact .accounted ..
  cases event with
  | claims | admits =>
      dsimp only [step] at stepped
      split at stepped <;> cases stepped
      exact .quiet
  | disconnects =>
      cases stepped
      exact .quiet
  | awakes =>
      obtain ⟨_, _, same⟩ := Option.map_eq_some_iff.mp stepped
      cases same
      exact .quiet
  | proceeds answers =>
      cases stepped
      cases loop : state.loop with
      | starts claim stage | accounts claim stage => exact account stage claim answers
      | waits => exact .quiet
      | passes _ stage =>
          cases stage with
          | checks => exact .quiet
          | reads => exact .read ..
          | fails => exact .failed ..
          | reconciles => exact .told ..
          | closes => exact .completed loop rfl
  | continues _ answers =>
      obtain ⟨⟨_, _, stage⟩, _, same⟩ := Option.map_eq_some_iff.mp stepped
      cases same
      cases stage with
      | asks | finds => exact .quiet
      | accounts claim stage => exact account stage claim answers
      | decides => exact .admitted ..

theorem step_closes (stepped : state.step event = some (report, next))
    (closes : next.loop = .passes claim (.closes bars)) :
    state.loop = .passes claim (.closes bars) ∨ Told [report] claim bars := by
  cases event with
  | claims | admits =>
      dsimp only [step] at stepped
      split at stepped <;> cases stepped
      exact .inl closes
  | disconnects =>
      cases stepped
      exact .inl closes
  | awakes =>
      obtain ⟨_, _, same⟩ := Option.map_eq_some_iff.mp stepped
      cases same
      contradiction
  | continues =>
      obtain ⟨_, _, same⟩ := Option.map_eq_some_iff.mp stepped
      cases same
      exact .inl closes
  | proceeds answers =>
      cases stepped
      dsimp only at closes
      cases loop : state.loop with
      | starts taken stage | accounts taken stage =>
          rw [loop] at closes
          dsimp only [Loop.advance] at closes
          cases rest : (stage.advance state.gate taken answers).stage <;>
            rw [rest] at closes <;> cases closes
      | waits =>
          rw [loop] at closes
          contradiction
      | passes _ stage =>
          rw [loop] at closes
          cases stage with
          | checks | reads =>
              dsimp only [Loop.advance, PassSection.advance] at closes
              split at closes <;> cases closes
          | reconciles =>
              cases closes
              refine .inr fun workspaceId barrier isOpen => ?_
              obtain ⟨told, accepted⟩ := Pass.barUntold_open isOpen barrier
              refine ⟨reconciledWorkspaces claim answers.bars, ?_, told⟩
              rw [List.mem_singleton]
              simp [Loop.advance, PassSection.advance, accepted]
          | fails | closes => contradiction

end Recovery

theorem Tracked.step (tracked : Tracked reports state)
    (stepped : state.step event = some (report, next)) : Tracked (reports ++ [report]) next := by
  have ⟨known, kept⟩ := tracked.known.step stepped
  obtain ⟨_, advances, turn⟩ := Recovery.step_turn stepped
  refine ⟨known, fun closes => ?_, ?_⟩
  · rcases Recovery.step_closes stepped closes with still | told
    · exact (tracked.closing still).append _
    · intro workspaceId barrier isOpen
      obtain ⟨workspaceIds, listed, named⟩ := told workspaceId barrier isOpen
      exact ⟨workspaceIds, List.mem_append_right _ listed, named⟩
  · generalize next.gate = after at turn
    have goesOn {claim : RunnerClaim} {records : Except String (List ProcessRecord)}
        {earlier later : List GateReport} (listed : claim ∈ state.claims)
        (split : reports = earlier ++ .accounted claim records :: later)
        (stands : Stands (reports ++ [report]) claim records (later ++ [report]) after) :
        ∃ claim ∈ next.claims, ∃ records earlier later,
          reports ++ [report] = earlier ++ .accounted claim records :: later ∧
            Stands (reports ++ [report]) claim records later after :=
      ⟨claim, kept claim listed, records, earlier, later ++ [report], by simp [split], stands⟩
    cases turn with
    | accounted isIt fresh =>
        refine .inr ⟨_, kept _ (tracked.known.advances advances isIt), _, reports, [], rfl, ?_⟩
        rw [Gate.takeAccount_fresh fresh]
        exact ⟨Gate.takeAccount_claimed .., nofun, rfl⟩
    | silent =>
        rcases tracked.stands with unclaimed | ⟨claim, listed, records, earlier, later, split, stands⟩
        · exact .inl unclaimed
        · refine .inr (goesOn listed split (stands.unmarked ?_ ?_))
          all_goals cases report <;> first | rfl | contradiction
    | failed _ reason =>
        rcases tracked.stands with unclaimed | ⟨claim, listed, records, earlier, later, split, stands⟩
        · exact .inl (by simp [Gate.failPass, unclaimed])
        · exact .inr (goesOn listed split (stands.failed _ reason))
    | completed isIt bars =>
        rcases tracked.stands with unclaimed | ⟨claim, listed, records, earlier, later, split, stands⟩
        · exact .inl (by simp [Gate.closePass, unclaimed])
        · refine .inr (goesOn listed split (stands.completed bars fun same => ?_))
          have said := Recovery.step_reports stepped
          generalize isIt : GateReport.completed _ bars = report at said
          cases said with
          | @completed closing _ _ closes of =>
              cases isIt
              have own : closing ∈ state.claims := tracked.known.loop (by rw [closes]; rfl)
              cases tracked.known.eq own listed (of.trans same)
              exact tracked.closing closes
          | _ => contradiction

theorem Tracked.start (claim : RunnerClaim) : Tracked [] (.start claim) where
  known := .start claim
  closing closes := by contradiction
  stands := .inl rfl

theorem Tracked.run {first : Recovery} (isStart : gateSystem.initial first)
    (run : gateSystem.Run first reports state) : Tracked reports state := by
  obtain ⟨claim, rfl⟩ := isStart
  have tracked := run.records Tracked (fun tracked ⟨event, stepped⟩ => tracked.step stepped)
    (Tracked.start claim)
  simpa using tracked

/-- The pass of a Claim that is not the gate's leaves the gate. -/
theorem PassSection.advance_other (other : gate.claimed ≠ some claim.epoch)
    (stage : PassSection) : (stage.advance link gate claim answers).gate = gate := by
  cases stage with
  | fails | closes => exact if_neg other
  | _ => rfl

/-- What the Claim, as it was taken into account, and its passes since say of the workspace: the latest
pass left it open or, before any ended, it has to do with nothing that was left. -/
def LeftOpen (claim : RunnerClaim) (records : Except String (List ProcessRecord))
    (later : List GateReport) (workspaceId : String) : Prop :=
  match latestOutcome claim.epoch later with
  | none => Untouched claim records workspaceId
  | some (.error _) => False
  | some (.ok bars) => bars.lookup workspaceId = none

theorem Stands.leftOpen (stands : Stands reports claim records later gate)
    (readable : gate.unreadable = none) (free : gate.barred.lookup workspaceId = none) :
    LeftOpen claim records later workspaceId ∧
      (workspaceId ∈ claim.barrier → Acknowledged reports claim.epoch workspaceId) := by
  have now := stands.stands
  unfold LeftOpen
  split at now
  · subst now
    have untouched := Gate.takeAccount_untouched readable free
    exact ⟨untouched, fun barrier => absurd barrier untouched.barrier⟩
  · cases readable.symm.trans now
  · obtain ⟨-, rfl, told⟩ := now
    exact ⟨free, fun barrier => told workspaceId barrier free⟩

/-- In every run: the gate's Claim is never an earlier one; a pass of another Claim leaves the gate; and
what is admitted under an epoch is admitted by the Claim of that epoch, which is the last one taken into
account, by what its records and its latest pass say, where the Runner acknowledged each workspace of its
barrier. -/
theorem gate_admits_what_its_claim_left_open {first : Recovery} (isStart : gateSystem.initial first)
    (run : gateSystem.Run first reports state) (stepped : state.step event = some (report, next)) :
    (∀ epoch, state.gate.claimed = some epoch → ∃ newer, next.gate.claimed = some newer ∧ epoch ≤ newer) ∧
    (∀ claim stage answers, state.loop = .passes claim stage → event = .proceeds answers →
      state.gate.claimed ≠ some claim.epoch → next.gate = state.gate) ∧
    ∀ workspaceId epoch, report = .admitted workspaceId epoch (.ok ()) → state.gate.claimed = some epoch ∧
      ∃ claim ∈ state.claims, ∃ records earlier later, claim.epoch = epoch ∧
        reports = earlier ++ .accounted claim records :: later ∧
        (∀ since ∈ later, since.isAccount = false) ∧
        LeftOpen claim records later workspaceId ∧
        (workspaceId ∈ claim.barrier → Acknowledged reports epoch workspaceId) := by
  have tracked := Tracked.run isStart run
  refine ⟨fun epoch claimed => ?_, ?_, ?_⟩
  · obtain ⟨_, -, turn⟩ := Recovery.step_turn stepped
    exact turn.claimed_le claimed
  · rintro claim stage answers loop rfl other
    cases stepped
    dsimp only
    rw [loop]
    exact stage.advance_other other
  · rintro workspaceId epoch rfl
    have said := Recovery.step_reports stepped
    generalize isIt : GateReport.admitted workspaceId epoch (.ok ()) = report at said
    cases said with
    | admitted =>
        obtain ⟨rfl, rfl, answer⟩ := GateReport.admitted.inj isIt
        obtain ⟨claimed, readable, free⟩ := Gate.admitWork_ok answer.symm
        refine ⟨claimed, ?_⟩
        rcases tracked.stands with unclaimed | ⟨claim, listed, records, earlier, later, split, stands⟩
        · cases unclaimed.symm.trans claimed
        · have isOf : claim.epoch = epoch := Option.some.inj (stands.claimed.symm.trans claimed)
          have left := stands.leftOpen readable free
          exact ⟨claim, listed, records, earlier, later, isOf, split, stands.latest, left.1,
            fun barrier => isOf ▸ left.2 barrier⟩
    | _ => contradiction

def Recovery.replay (state : Recovery) (events : List GateEvent) : Option (List GateReport × Recovery) :=
  Transition.replay Recovery.step (fun _ report => report) state events

theorem Recovery.run_of_replay {events : List GateEvent}
    (replayed : state.replay events = some (reports, next)) : gateSystem.Run state reports next :=
  System.run_of_replay (fun stepped => ⟨_, stepped⟩) replayed

/-- What was admitted, if something was. -/
def GateReport.admission? : GateReport → Option (String × Nat)
  | .admitted workspaceId epoch (.ok ()) => some (workspaceId, epoch)
  | _ => none

theorem GateReport.admission?_eq_some (admits : report.admission? = some (workspaceId, epoch)) :
    report = .admitted workspaceId epoch (.ok ()) := by
  unfold admission? at admits
  split at admits
  · cases admits
    rfl
  · contradiction

/-- Whether the latest read of the records for the Claim of `epoch` succeeded. -/
def latestRead (epoch : Nat) (reports : List GateReport) : Option Bool :=
  (reports.filterMap fun
    | .read of succeeded => if of = epoch then some succeeded else none
    | _ => none).getLast?

/-- A workspace of the barrier is admitted after the pass that reconciled it. -/
theorem barrier_is_admitted_once_reconciled :
    let claim : RunnerClaim := { epoch := 1, barrier := ["w"] }
    let events : List GateEvent :=
      List.replicate 3 (.proceeds {}) ++ [.awakes (some claim)] ++ List.replicate 5 (.proceeds {}) ++
        [.admits 0 "w" 1, .continues 0 {}]
    ∃ reports state, (Recovery.start claim).replay events = some (reports, state) ∧
      Acknowledged reports 1 "w" := by
  intro claim events
  have seen : ((Recovery.start claim).replay events).map (fun run =>
      ((run.2.step (.continues 0 {})).bind fun stepped => stepped.1.admission?,
        run.2.claims.map RunnerClaim.barrier)) = some (some ("w", 1), [["w"]]) := by decide +kernel
  obtain ⟨⟨reports, state⟩, replayed, same⟩ := Option.map_eq_some_iff.mp seen
  obtain ⟨admits, barriers⟩ := Prod.mk.inj same
  obtain ⟨⟨_, _⟩, stepped, admitted⟩ := Option.bind_eq_some_iff.mp admits
  obtain ⟨-, taken, listed, _, _, _, -, -, -, -, acknowledged⟩ :=
    (gate_admits_what_its_claim_left_open ⟨claim, rfl⟩ (Recovery.run_of_replay replayed) stepped).2.2
      "w" 1 (GateReport.admission?_eq_some admitted)
  have barrier : taken.barrier ∈ state.claims.map RunnerClaim.barrier := List.mem_map_of_mem listed
  rw [barriers, List.mem_singleton] at barrier
  exact ⟨reports, state, replayed, acknowledged (by simp [barrier])⟩

/-- A call takes account of a new Claim while `run` does: its read fails, and what `run` read is what the
call is admitted by. -/
theorem admitted_after_a_failed_read :
    ∃ first reports state event next, gateSystem.initial first ∧ gateSystem.Run first reports state ∧
      state.step event = some (.admitted "w" 2 (.ok ()), next) ∧ latestRead 2 reports = some false := by
  let claim (epoch : Nat) : RunnerClaim := { epoch := epoch }
  let events : List GateEvent :=
    List.replicate 3 (.proceeds {}) ++ [.claims (claim 2), .awakes (some (claim 2))] ++
      List.replicate 2 (.proceeds {}) ++ [.admits 0 "w" 2] ++ List.replicate 3 (.continues 0 {}) ++
      [.continues 0 { records := .error "disk I/O error" }, .proceeds {}, .continues 0 {}]
  have seen : ((Recovery.start (claim 1)).replay events).map (fun run =>
      ((run.2.step (.continues 0 {})).bind fun stepped => stepped.1.admission?,
        latestRead 2 run.1)) = some (some ("w", 2), some false) := by decide +kernel
  obtain ⟨⟨reports, state⟩, replayed, same⟩ := Option.map_eq_some_iff.mp seen
  obtain ⟨admits, failed⟩ := Prod.mk.inj same
  obtain ⟨⟨_, next⟩, stepped, admitted⟩ := Option.bind_eq_some_iff.mp admits
  cases GateReport.admission?_eq_some admitted
  exact ⟨_, reports, state, _, next, ⟨claim 1, rfl⟩, Recovery.run_of_replay replayed, stepped, failed⟩

end CodeSpace.Server
