import CodeSpace.Data.Framing
import CodeSpace.Transition.Run

namespace CodeSpace.Runner

open Data Transition

/-! The writes of a client's calls over one connection: `call_on`, `stop_writing` and `close_link` of
`uds.rs`, and `write_frame` of `wire.rs`. A call is known by the number its request id was made from.
At each await its future may be dropped, which gives back the writer's lock if it holds it. -/

inductive CallStage
  | unborn
  | registering
  | locking
  /-- It holds the writer, with these bytes of its frame left. -/
  | writing (rest : List UInt8)
  /-- Its write failed, with socket I/O started or not, and it takes back its entry in `pending`. -/
  | removing (started : Bool)
  /-- `stop_writing` or `close_link`, which wait for the writer to shut it down. -/
  | stopping
  | answering
  | ended
deriving DecidableEq, Repr

structure LinkWriter where
  /-- The bytes the socket has accepted. -/
  written : List UInt8 := []
  alive : Bool := true
  shut : Bool := false
  /-- A write over the connection has failed. -/
  failed : Bool := false
  writer : Option Nat := none
  nextId : Nat := 0
  stage : Nat → CallStage := fun _ => .unborn

inductive LinkWriteEvent
  | call
  | register (call : Nat)
  | lock (call : Nat)
  /-- The socket accepts some bytes of the call's frame. -/
  | accept (call count : Nat)
  | flush (call : Nat)
  /-- A write or the flush of the call's frame fails. -/
  | fail (call : Nat)
  | remove (call : Nat)
  | shutdown (call : Nat)
  | answer (call : Nat)
  | deadline (call : Nat)
  /-- Another task closes the connection. -/
  | close
  | drop (call : Nat)
deriving DecidableEq, Repr

namespace LinkWriter

def setStage (link : LinkWriter) (call : Nat) (stage : CallStage) : LinkWriter :=
  { link with stage := Function.update link.stage call stage }

/-- The call gives back the writer and goes on. -/
def release (link : LinkWriter) (call : Nat) (stage : CallStage) : LinkWriter :=
  { link.setStage call stage with writer := none }

/-- A step of the calls whose requests have these payloads. -/
def step (payload : Nat → List UInt8) (link : LinkWriter) : LinkWriteEvent → Option LinkWriter
  | .call => some { link.setStage link.nextId .registering with nextId := link.nextId + 1 }
  | .register call =>
      if link.stage call = .registering then some (link.setStage call .locking) else none
  | .lock call =>
      if link.stage call = .locking ∧ link.writer = none then
        if 4294967296 ≤ (payload call).length then some (link.setStage call (.removing false))
        else some { link.setStage call (.writing (frame (payload call))) with writer := some call }
      else none
  | .accept call count =>
      match link.stage call with
      | .writing rest =>
          if link.shut = false ∧ 0 < count ∧ count ≤ rest.length then
            some { link.setStage call (.writing (rest.drop count)) with
              written := link.written ++ rest.take count }
          else none
      | _ => none
  | .flush call =>
      if link.stage call = .writing [] then some (link.release call .answering) else none
  | .fail call =>
      match link.stage call with
      | .writing _ => some { link.release call (.removing true) with failed := true }
      | _ => none
  | .remove call =>
      match link.stage call with
      | .removing true => some { link.setStage call .stopping with alive := false }
      | .removing false => some (link.setStage call .ended)
      | _ => none
  | .shutdown call =>
      if link.stage call = .stopping ∧ link.writer = none then
        some { link.setStage call .ended with shut := true }
      else none
  | .answer call => if link.stage call = .answering then some (link.setStage call .ended) else none
  | .deadline call =>
      if link.stage call = .answering then
        some { link.setStage call .stopping with alive := false }
      else none
  | .close => if link.writer = none then some { link with alive := false, shut := true } else none
  | .drop call =>
      match link.stage call with
      | .unborn => none
      | .writing _ => some (link.release call .ended)
      | _ => some (link.setStage call .ended)

end LinkWriter

def linkWriteSystem (payload : Nat → List UInt8) : System LinkWriter LinkWriteEvent where
  initial link := link = {}
  step before event after := before.step payload event = some after

/-- Of the frame of a call that writes, either all is written or nothing. -/
def CallStage.Undivided (whole : List UInt8) : CallStage → Prop
  | .writing rest => rest = [] ∨ rest = whole
  | _ => True

instance (whole : List UInt8) : (stage : CallStage) → Decidable (stage.Undivided whole)
  | .writing rest => inferInstanceAs (Decidable (rest = [] ∨ rest = whole))
  | .unborn | .registering | .locking | .removing _ | .stopping | .answering | .ended =>
      .isTrue trivial

/-- No call is dropped while a part of its frame is written, and a socket over which a write failed
accepts nothing more. -/
def Orderly (payload : Nat → List UInt8) (link : LinkWriter) : LinkWriteEvent → Prop
  | .drop call => (link.stage call).Undivided (frame (payload call))
  | .accept _ _ => link.failed = false
  | _ => True

instance (payload : Nat → List UInt8) (link : LinkWriter) :
    (event : LinkWriteEvent) → Decidable (Orderly payload link event)
  | .drop call => inferInstanceAs (Decidable ((link.stage call).Undivided (frame (payload call))))
  | .accept _ _ => inferInstanceAs (Decidable (link.failed = false))
  | .call | .register _ | .lock _ | .flush _ | .fail _ | .remove _ | .shutdown _ | .answer _
  | .deadline _ | .close => .isTrue trivial

def orderlyWrites (payload : Nat → List UInt8) : System LinkWriter LinkWriteEvent :=
  (linkWriteSystem payload).restrict (Orderly payload)

variable {payload : Nat → List UInt8} {before after link later : LinkWriter}
  {event : LinkWriteEvent} {events : List LinkWriteEvent} {call : Nat}

/-- A call that has yet to write its frame. -/
def CallStage.isBefore : CallStage → Bool
  | .unborn | .registering | .locking | .writing _ => true
  | _ => false

/-- The state of the stream after its whole frames: at its end, within the frame of the call that
writes, or within one that nobody goes on with. -/
inductive Tail (payload : Nat → List UInt8) (link : LinkWriter) (sent : List Nat) :
    List UInt8 → Prop
  | clean (idle : ∀ call rest, link.stage call ≠ .writing rest) : Tail payload link sent []
  | midway {call : Nat} {written rest : List UInt8} (writes : link.stage call = .writing rest)
      (divides : written ++ rest = frame (payload call)) : Tail payload link sent written
  | torn {call : Nat} {written : List UInt8} (gone : (link.stage call).isBefore = false)
      (failed : link.failed = true) (small : (payload call).length < 4294967296)
      (isPart : written <+: frame (payload call)) (proper : written ≠ frame (payload call))
      (unsent : call ∉ sent)
      (fresh : ∀ other rest, link.stage other = .writing rest → rest ≠ []) :
      Tail payload link sent written

structure Framing (payload : Nat → List UInt8) (link : LinkWriter) (sent : List Nat)
    (tail : List UInt8) : Prop where
  bytes : link.written = (sent.map payload).flatMap frame ++ tail
  distinct : sent.Nodup
  past : ∀ call ∈ sent, (link.stage call).isBefore = false
  smallSent : ∀ call ∈ sent, (payload call).length < 4294967296
  small : ∀ call rest, link.stage call = .writing rest → (payload call).length < 4294967296
  locked : ∀ call rest, link.stage call = .writing rest → link.writer = some call
  known : ∀ call, link.nextId ≤ call → link.stage call = .unborn
  tail : Tail payload link sent tail

namespace Framing

variable {sent : List Nat} {tail rest : List UInt8} {stage found : CallStage} {other : Nat}
  {alive shut : Bool}

theorem unwritten : Framing payload {} [] [] where
  bytes := rfl
  distinct := List.nodup_nil
  past := fun _ isSent => absurd isSent List.not_mem_nil
  smallSent := fun _ isSent => absurd isSent List.not_mem_nil
  small := fun _ _ writes => nomatch writes
  locked := fun _ _ writes => nomatch writes
  known := fun _ _ => rfl
  tail := .clean fun _ _ writes => nomatch writes

theorem stage_cases (held : Function.update link.stage call stage other = found) :
    other = call ∧ stage = found ∨ other ≠ call ∧ link.stage other = found := by
  by_cases same : other = call
  · subst same
    rw [Function.update_self] at held
    exact .inl ⟨rfl, held⟩
  · rw [Function.update_of_ne same] at held
    exact .inr ⟨same, held⟩

theorem isBefore_update (later : stage.isBefore = true → (link.stage call).isBefore = true)
    (gone : (link.stage other).isBefore = false) :
    (Function.update link.stage call stage other).isBefore = false := by
  by_cases same : other = call
  · subst same
    rw [Function.update_self]
    by_contra notGone
    rw [later (eq_true_of_ne_false notGone)] at gone
    cases gone
  · rw [Function.update_of_ne same]
    exact gone

section

variable (framing : Framing payload link sent tail)
include framing

theorem unmoved (written : after.written = link.written)
    (failed : after.failed = link.failed) (writer : after.writer = link.writer)
    (writing : ∀ other found, after.stage other = .writing found ↔ link.stage other = .writing found)
    (past : ∀ other, (link.stage other).isBefore = false → (after.stage other).isBefore = false)
    (known : ∀ other, after.nextId ≤ other → after.stage other = .unborn) :
    Framing payload after sent tail where
  bytes := written.trans framing.bytes
  distinct := framing.distinct
  past call isSent := past call (framing.past call isSent)
  smallSent := framing.smallSent
  small call found writes := framing.small call found ((writing call found).mp writes)
  locked call found writes := writer.trans (framing.locked call found ((writing call found).mp writes))
  known := known
  tail := by
    cases framing.tail with
    | clean idle => exact .clean fun other found writes => idle other found ((writing other found).mp writes)
    | midway writes divides => exact .midway ((writing _ _).mpr writes) divides
    | torn gone isFailed small isPart proper unsent fresh =>
        exact .torn (past _ gone) (failed.trans isFailed) small isPart proper unsent
          fun other found writes => fresh other found ((writing other found).mp writes)

theorem aside (isStage : after.stage = Function.update link.stage call stage)
    (same : after.written = link.written ∧ after.failed = link.failed ∧ after.writer = link.writer)
    (grows : link.nextId ≤ after.nextId) (known : call < after.nextId)
    (notWriting : ∀ rest, link.stage call ≠ .writing rest) (stillNot : ∀ rest, stage ≠ .writing rest)
    (later : stage.isBefore = true → (link.stage call).isBefore = true) :
    Framing payload after sent tail := by
  refine framing.unmoved same.1 same.2.1 same.2.2 (fun other found => ?_) (fun other gone => ?_)
    fun other unknown => ?_
  · rw [isStage]
    by_cases isCall : other = call
    · subst isCall
      rw [Function.update_self]
      exact iff_of_false (stillNot found) (notWriting found)
    · rw [Function.update_of_ne isCall]
  · rw [isStage]
    exact isBefore_update later gone
  · rw [isStage, Function.update_of_ne (by omega)]
    exact framing.known other (Nat.le_trans grows unknown)

theorem known_of_stage (born : link.stage call ≠ .unborn) : call < link.nextId := by
  by_contra unknown
  exact born (framing.known call (Nat.le_of_not_lt unknown))

theorem known_update (born : link.stage call ≠ .unborn) (other : Nat) (unknown : link.nextId ≤ other) :
    Function.update link.stage call stage other = .unborn := by
  have known := framing.known_of_stage born
  rw [Function.update_of_ne (by omega)]
  exact framing.known other unknown

theorem proceeds (standing : link.stage call = found) (born : found ≠ .unborn)
    (notWriting : ∀ rest, found ≠ .writing rest) (stillNot : ∀ rest, stage ≠ .writing rest)
    (later : stage.isBefore = true → found.isBefore = true) :
    ∃ sent tail, Framing payload { link.setStage call stage with alive, shut } sent tail := by
  have known : call < link.nextId := framing.known_of_stage (standing ▸ born)
  exact ⟨sent, tail, framing.aside rfl ⟨rfl, rfl, rfl⟩ (Nat.le_refl _) known (standing ▸ notWriting) stillNot
    (standing ▸ later)⟩

theorem unsent_of_writing (writes : link.stage call = .writing rest) : call ∉ sent := by
  intro isSent
  have gone := framing.past call isSent
  rw [writes] at gone
  cases gone

theorem only_writer (writes : link.stage call = .writing rest) {found : List UInt8}
    (alsoWrites : link.stage other = .writing found) : other = call := by
  have locked := framing.locked call rest writes
  rw [framing.locked other found alsoWrites] at locked
  exact Option.some.inj locked

end

theorem sends (framing : Framing payload link sent (frame (payload call)))
    (writes : link.stage call = .writing rest) :
    link.written = ((sent ++ [call]).map payload).flatMap frame ++ [] ∧ (sent ++ [call]).Nodup ∧
      ∀ other ∈ sent ++ [call], (payload other).length < 4294967296 := by
  refine ⟨?_, ?_, fun other isSent => ?_⟩
  · rw [framing.bytes, List.map_append, List.flatMap_append]
    simp
  · exact List.nodup_append.mpr ⟨framing.distinct, by simp, fun first isFirst second isSecond same =>
      framing.unsent_of_writing writes (List.mem_singleton.mp isSecond ▸ same ▸ isFirst)⟩
  · rcases List.mem_append.mp isSent with earlier | isCall
    · exact framing.smallSent other earlier
    · rw [List.mem_singleton.mp isCall]
      exact framing.small call rest writes

section

variable (framing : Framing payload link sent tail)
include framing

/-- A call gives back the writer: its frame is whole, or it is not begun, or nobody goes on with it. -/
theorem releases (writes : link.stage call = .writing rest) (stillNot : ∀ rest, stage ≠ .writing rest)
    (gone : stage.isBefore = false) {failed : Bool} (keeps : link.failed = true → failed = true)
    (ends : rest = [] ∨ rest = frame (payload call) ∨ failed = true) :
    ∃ sent tail, Framing payload { link.release call stage with failed } sent tail := by
  have born : link.stage call ≠ .unborn := by simp [writes]
  have idle (other : Nat) (found : List UInt8) :
      Function.update link.stage call stage other ≠ .writing found := by
    intro stillWrites
    rcases stage_cases stillWrites with ⟨_, same⟩ | ⟨differs, held⟩
    · exact stillNot found same
    · exact differs (framing.only_writer writes held)
  have past (other : Nat) (isGone : (link.stage other).isBefore = false) :
      (Function.update link.stage call stage other).isBefore = false :=
    isBefore_update (fun before => by rw [gone] at before; cases before) isGone
  have goneCall : (Function.update link.stage call stage call).isBefore = false := by
    rw [Function.update_self]
    exact gone
  have kept {tail : List UInt8}
      (bytes : link.written = (sent.map payload).flatMap frame ++ tail)
      (left : Tail payload { link.release call stage with failed } sent tail) :
      ∃ sent tail, Framing payload { link.release call stage with failed } sent tail :=
    ⟨sent, tail, bytes, framing.distinct, fun other isSent => past other (framing.past other isSent),
      framing.smallSent, fun other found stillWrites => absurd stillWrites (idle other found),
      fun other found stillWrites => absurd stillWrites (idle other found), framing.known_update born, left⟩
  have bytes := framing.bytes
  cases framing.tail with
  | clean noOne => exact absurd writes (noOne call rest)
  | @midway writer written found writesToo divides =>
      cases framing.only_writer writes writesToo
      cases writes.symm.trans writesToo
      by_cases done : rest = []
      · rw [done, List.append_nil] at divides
        obtain ⟨all, distinct, small⟩ := (divides ▸ framing).sends writes
        refine ⟨sent ++ [call], [], all, distinct, fun other isSent => ?_, small,
          fun other found stillWrites => absurd stillWrites (idle other found),
          fun other found stillWrites => absurd stillWrites (idle other found), framing.known_update born,
          .clean idle⟩
        rcases List.mem_append.mp isSent with earlier | isCall
        · exact past other (framing.past other earlier)
        · rw [List.mem_singleton.mp isCall]
          exact goneCall
      rcases ends.resolve_left done with untouched | isFailed
      · have nothing : tail = [] := by
          rw [untouched] at divides
          simpa using divides
        rw [nothing] at bytes
        exact kept bytes (.clean idle)
      · refine kept bytes (.torn goneCall isFailed (framing.small call rest writes)
          ⟨rest, divides⟩ ?_ (framing.unsent_of_writing writes) fun other found stillWrites =>
            absurd stillWrites (idle other found))
        intro same
        rw [← same] at divides
        exact done (by simpa using divides)
  | torn isGone isFailed small isPart proper unsent =>
      exact kept bytes (.torn (past _ isGone) (keeps isFailed) small isPart proper unsent
        fun other found stillWrites => absurd stillWrites (idle other found))

theorem calls :
    Framing payload { link.setStage link.nextId .registering with nextId := link.nextId + 1 } sent
      tail := by
  have unborn := framing.known link.nextId (Nat.le_refl _)
  exact framing.aside rfl ⟨rfl, rfl, rfl⟩ (Nat.le_succ _) (Nat.lt_succ_self _) (by simp [unborn]) (by simp)
    fun _ => unborn ▸ rfl

theorem locks (waits : link.stage call = .locking)
    (free : link.writer = none) (small : (payload call).length < 4294967296) :
    Framing payload
      { link.setStage call (.writing (frame (payload call))) with writer := some call } sent tail := by
  have idle (other : Nat) (found : List UInt8) : link.stage other ≠ .writing found := by
    intro writes
    have locked := framing.locked other found writes
    rw [free] at locked
    cases locked
  have only {other : Nat} {found : List UInt8}
      (writes : Function.update link.stage call (.writing (frame (payload call))) other =
        .writing found) : other = call ∧ found = frame (payload call) := by
    rcases stage_cases writes with ⟨isCall, same⟩ | ⟨_, held⟩
    · exact ⟨isCall, (CallStage.writing.inj same).symm⟩
    · exact absurd held (idle other found)
  have past (other : Nat) (isGone : (link.stage other).isBefore = false) :
      (Function.update link.stage call (.writing (frame (payload call))) other).isBefore = false :=
    isBefore_update (fun _ => by rw [waits]; rfl) isGone
  refine ⟨framing.bytes, framing.distinct, fun other isSent => past other (framing.past other isSent),
    framing.smallSent, fun other found writes => ?_, fun other found writes => ?_,
    framing.known_update (by simp [waits]), ?_⟩
  · rw [(only writes).1]
    exact small
  · rw [(only writes).1]
  · cases framing.tail with
    | clean =>
        have writes : Function.update link.stage call (.writing (frame (payload call))) call =
            .writing (frame (payload call)) := Function.update_self ..
        exact .midway writes (List.nil_append _)
    | midway writes => exact absurd writes (idle _ _)
    | torn gone failed small isPart proper unsent =>
        exact .torn (past _ gone) failed small isPart proper unsent fun other found writes => by
          rw [(only writes).2]
          exact frame_ne_nil _

theorem accepts (writes : link.stage call = .writing rest) (working : link.failed = false) (count : Nat) :
    ∃ tail, Framing payload
      { link.setStage call (.writing (rest.drop count)) with
        written := link.written ++ rest.take count } sent tail := by
  have only {other : Nat} {found : List UInt8}
      (stillWrites : Function.update link.stage call (.writing (rest.drop count)) other =
        .writing found) : other = call := by
    rcases stage_cases stillWrites with ⟨isCall, _⟩ | ⟨_, held⟩
    · exact isCall
    · exact framing.only_writer writes held
  have bytes := framing.bytes
  cases framing.tail with
  | clean idle => exact absurd writes (idle call rest)
  | torn _ failed =>
      rw [working] at failed
      cases failed
  | @midway writer _ found writesToo divides =>
      cases framing.only_writer writes writesToo
      cases writes.symm.trans writesToo
      refine ⟨tail ++ rest.take count, ?_, framing.distinct, fun other isSent => ?_,
        framing.smallSent, fun other found stillWrites => ?_, fun other found stillWrites => ?_,
        framing.known_update (by simp [writes]), ?_⟩
      · change link.written ++ rest.take count = _
        rw [bytes, List.append_assoc]
      · exact isBefore_update (fun _ => by rw [writes]; rfl) (framing.past other isSent)
      · rw [only stillWrites]
        exact framing.small call rest writes
      · rw [only stillWrites]
        exact framing.locked call rest writes
      · have stillWrites : Function.update link.stage call (.writing (rest.drop count)) call =
            .writing (rest.drop count) := Function.update_self ..
        refine .midway stillWrites ?_
        rw [List.append_assoc, List.take_append_drop]
        exact divides

theorem closes : Framing payload { link with alive, shut } sent tail :=
  framing.unmoved rfl rfl rfl (fun _ _ => .rfl) (fun _ => id) framing.known

end

theorem step (framing : Framing payload before sent tail)
    (stepped : (orderlyWrites payload).step before event after) :
    ∃ sent tail, Framing payload after sent tail := by
  obtain ⟨orderly, stepped⟩ := stepped
  change before.step payload event = some after at stepped
  cases event with
  | call =>
      cases stepped
      exact ⟨sent, tail, framing.calls⟩
  | register =>
      simp only [LinkWriter.step, Option.ite_none_right_eq_some, Option.some.injEq] at stepped
      obtain ⟨standing, rfl⟩ := stepped
      exact framing.proceeds standing (by simp) (by simp) (by simp) fun _ => rfl
  | lock =>
      simp only [LinkWriter.step, Option.ite_none_right_eq_some] at stepped
      obtain ⟨⟨waits, free⟩, stepped⟩ := stepped
      split at stepped
      · cases stepped
        exact framing.proceeds waits (by simp) (by simp) (by simp) fun _ => rfl
      · cases stepped
        exact ⟨sent, tail, framing.locks waits free (by omega)⟩
  | accept _ count =>
      simp only [LinkWriter.step] at stepped
      split at stepped
      next writes =>
        simp only [Option.ite_none_right_eq_some, Option.some.injEq] at stepped
        obtain ⟨_, rfl⟩ := stepped
        exact ⟨sent, framing.accepts writes orderly count⟩
      · cases stepped
  | flush =>
      simp only [LinkWriter.step, Option.ite_none_right_eq_some, Option.some.injEq] at stepped
      obtain ⟨writes, rfl⟩ := stepped
      exact framing.releases writes (by simp) rfl id (.inl rfl)
  | fail =>
      simp only [LinkWriter.step] at stepped
      split at stepped
      next writes =>
        cases stepped
        exact framing.releases writes (by simp) rfl (fun _ => rfl) (.inr (.inr rfl))
      · cases stepped
  | remove =>
      simp only [LinkWriter.step] at stepped
      split at stepped <;> cases stepped
      all_goals
        next standing =>
          exact framing.proceeds standing (by simp) (by simp) (by simp) (by simp [CallStage.isBefore])
  | shutdown =>
      simp only [LinkWriter.step, Option.ite_none_right_eq_some, Option.some.injEq] at stepped
      obtain ⟨⟨standing, _⟩, rfl⟩ := stepped
      exact framing.proceeds standing (by simp) (by simp) (by simp) (by simp [CallStage.isBefore])
  | answer | deadline =>
      simp only [LinkWriter.step, Option.ite_none_right_eq_some, Option.some.injEq] at stepped
      obtain ⟨standing, rfl⟩ := stepped
      exact framing.proceeds standing (by simp) (by simp) (by simp) (by simp [CallStage.isBefore])
  | close =>
      simp only [LinkWriter.step, Option.ite_none_right_eq_some, Option.some.injEq] at stepped
      obtain ⟨_, rfl⟩ := stepped
      exact ⟨sent, tail, framing.closes⟩
  | drop =>
      simp only [LinkWriter.step] at stepped
      split at stepped
      · cases stepped
      next writes =>
        cases stepped
        simp only [Orderly, writes, CallStage.Undivided] at orderly
        exact framing.releases writes (by simp) rfl id (orderly.imp_right .inl)
      next born notWriting =>
        cases stepped
        exact framing.proceeds rfl born notWriting (by simp) (by simp [CallStage.isBefore])

theorem run (run : (orderlyWrites payload).Run {} events link) :
    ∃ sent tail, Framing payload link sent tail :=
  run.keeps (fun link => ∃ sent tail, Framing payload link sent tail)
    (fun stepped ⟨_, _, framing⟩ => framing.step stepped) ⟨[], [], unwritten⟩

theorem called (framing : Framing payload link sent tail)
    (gone : (link.stage call).isBefore = false) : call < link.nextId := by
  refine framing.known_of_stage fun unborn => ?_
  rw [unborn] at gone
  cases gone

end Framing

/-- After a write has failed the socket accepts no byte. -/
theorem failed_step (stepped : (orderlyWrites payload).step before event after)
    (failed : before.failed = true) : after.failed = true ∧ after.written = before.written := by
  obtain ⟨orderly, stepped⟩ := stepped
  change before.step payload event = some after at stepped
  cases event with
  | accept =>
      rw [show before.failed = false from orderly] at failed
      cases failed
  | call =>
      cases stepped
      exact ⟨failed, rfl⟩
  | register | flush | shutdown | answer | deadline | close =>
      simp only [LinkWriter.step, Option.ite_none_right_eq_some, Option.some.injEq] at stepped
      obtain ⟨_, rfl⟩ := stepped
      exact ⟨failed, rfl⟩
  | lock | fail | remove | drop =>
      simp only [LinkWriter.step] at stepped
      repeat' split at stepped
      all_goals cases stepped
      all_goals first | exact ⟨failed, rfl⟩ | exact ⟨rfl, rfl⟩

theorem written_of_failed (run : (orderlyWrites payload).Run link events later)
    (failed : link.failed = true) : later.written = link.written := by
  have kept : later.failed = true ∧ later.written = link.written :=
    run.keeps (fun state => state.failed = true ∧ state.written = link.written)
      (fun stepped ⟨stillFailed, same⟩ =>
        (failed_step stepped stillFailed).imp_right fun unchanged => unchanged.trans same)
      ⟨failed, rfl⟩
  exact kept.2

/-- The connection holds whole frames of distinct calls, and after them possibly a part of the frame
of one more. The length of each payload fits the four bytes before it. -/
structure Framed (payload : Nat → List UInt8) (link : LinkWriter) (sent : List Nat)
    (part : List UInt8) : Prop where
  bytes : link.written = (sent.map payload).flatMap frame ++ part
  distinct : sent.Nodup
  called : ∀ call ∈ sent, call < link.nextId
  fits : ∀ call ∈ sent, (payload call).length < 4294967296
  incomplete : part = [] ∨ ∃ call, call < link.nextId ∧ call ∉ sent ∧
    (payload call).length < 4294967296 ∧ part <+: frame (payload call) ∧ part ≠ frame (payload call)

/-- A call still has the rest of the frame to write that the stream ends in. -/
def Continued (payload : Nat → List UInt8) (link : LinkWriter) (part : List UInt8) : Prop :=
  ∃ call rest, link.stage call = .writing rest ∧ part ++ rest = frame (payload call)

section Frames

variable {sent : List Nat} {tail part : List UInt8}

theorem Framing.framed (framing : Framing payload link sent tail) :
    ∃ sent part, Framed payload link sent part ∧
      (part = [] ∨ Continued payload link part ∨ link.failed = true) := by
  have called (call : Nat) (isSent : call ∈ sent) : call < link.nextId :=
    framing.called (framing.past call isSent)
  have bytes := framing.bytes
  cases framing.tail with
  | clean =>
      exact ⟨sent, [], ⟨bytes, framing.distinct, called, framing.smallSent, .inl rfl⟩, .inl rfl⟩
  | @midway call written rest writes divides =>
      have known : call < link.nextId := framing.known_of_stage (by rw [writes]; simp)
      have unsent := framing.unsent_of_writing writes
      have small := framing.small call rest writes
      by_cases done : rest = []
      · rw [done, List.append_nil] at divides
        obtain ⟨all, distinct, fits⟩ := (divides ▸ framing).sends writes
        refine ⟨sent ++ [call], [], ⟨all, distinct, fun other isSent => ?_, fits, .inl rfl⟩, .inl rfl⟩
        rcases List.mem_append.mp isSent with earlier | isCall
        · exact called other earlier
        · rw [List.mem_singleton.mp isCall]
          exact known
      · refine ⟨sent, tail, ⟨bytes, framing.distinct, called, framing.smallSent,
          .inr ⟨call, known, unsent, small, ⟨rest, divides⟩, fun same => done ?_⟩⟩,
          .inr (.inl ⟨call, rest, writes, divides⟩)⟩
        rw [← same] at divides
        simpa using divides
  | torn gone failed small isPart proper unsent =>
      exact ⟨sent, tail, ⟨bytes, framing.distinct, called, framing.smallSent,
        .inr ⟨_, framing.called gone, unsent, small, isPart, proper⟩⟩, .inr (.inr failed)⟩

/-- The Runner reads only frames of calls, each at most once and in the order they were written. -/
theorem Framed.reads (framed : Framed payload link sent part) (limit count : Nat) :
    readFrames limit count link.written <+: sent.map payload := by
  have noFrame : readFrame limit part = none := by
    rcases framed.incomplete with rfl | ⟨_, _, _, small, isPart, proper⟩
    · rfl
    · exact readFrame_part small isPart proper
  rw [framed.bytes]
  refine readFrames_whole (fun bytes isPayload => ?_) noFrame count
  obtain ⟨call, isSent, rfl⟩ := List.mem_map.mp isPayload
  exact framed.fits call isSent

end Frames

/-- For every orderly run of the calls over one connection: the bytes written are whole frames of
distinct calls and possibly a part of one more, which its call is still writing or after which nothing
more is ever written, and what the Runner reads are the frames of calls. -/
theorem orderly_writes_are_framed (run : (orderlyWrites payload).Run {} events link) :
    ∃ sent part, Framed payload link sent part ∧
      (∀ limit count, readFrames limit count link.written <+: sent.map payload) ∧
      (part = [] ∨ Continued payload link part ∨
        ∀ {laterEvents : List LinkWriteEvent} {later : LinkWriter},
          (orderlyWrites payload).Run link laterEvents later → later.written = link.written) := by
  obtain ⟨_, _, framing⟩ := Framing.run run
  obtain ⟨sent, part, framed, ends⟩ := framing.framed
  refine ⟨sent, part, framed, framed.reads, ends.imp_right fun ends => ends.imp_right ?_⟩
  intro failed _ _ continued
  exact written_of_failed continued failed

/-- The payload of a small request: an object with the call's digit. -/
def digitRequest (call : Nat) : List UInt8 :=
  [123, 34, 105, 34, 58, UInt8.ofNat (48 + call), 125]

/-- Two calls, the second of which fails in the middle of its frame. -/
theorem failed_write_is_framed :
    ∃ events link, (orderlyWrites digitRequest).Run {} events link ∧ link.failed = true ∧
      link.written.length = 16 ∧ readFrames 16777216 5 link.written = [digitRequest 0] ∧
      ∃ sent part, Framed digitRequest link sent part := by
  obtain ⟨trace, link, run, failed, written⟩ := (linkWriteSystem digitRequest).exists_event_run
    (fun stepped => stepped) (Orderly digitRequest) {}
    [.call, .call, .register 0, .lock 0, .accept 0 4, .accept 0 7, .flush 0, .register 1, .lock 1,
      .accept 1 4, .accept 1 1, .fail 1]
    (fun link => link.failed = true ∧
      link.written = [0, 0, 0, 7, 123, 34, 105, 34, 58, 48, 125, 0, 0, 0, 7, 123]) (by decide +kernel)
  obtain ⟨sent, part, framed, _⟩ := orderly_writes_are_framed run
  refine ⟨trace, link, run, failed, ?_, ?_, sent, part, framed⟩
  · rw [written]
    rfl
  · rw [written]
    decide +kernel

/-- A call that is dropped in the middle of its frame lets the next one write over it: the Runner reads
a frame that begins with the second call's length. -/
theorem dropped_call_breaks_a_frame : ∃ events link, (linkWriteSystem digitRequest).Run {} events link ∧
      (∃ payload ∈ readFrames 16777216 1 link.written, ∀ call, digitRequest call ≠ payload) ∧
      ¬∃ sent part, Framed digitRequest link sent part := by
  obtain ⟨trace, link, run, written⟩ := (linkWriteSystem digitRequest).exists_event_run
    (fun stepped => stepped) (fun _ _ => True) {}
    [.call, .call, .register 0, .lock 0, .accept 0 4, .drop 0, .register 1, .lock 1, .accept 1 4,
      .accept 1 7, .flush 1]
    (fun link => link.written = [0, 0, 0, 7, 0, 0, 0, 7, 123, 34, 105, 34, 58, 49, 125])
    (by decide +kernel)
  have readsLength : [0, 0, 0, 7, 123, 34, 105] ∈ readFrames 16777216 1 link.written := by
    rw [written]
    decide +kernel
  have noCall (call : Nat) : digitRequest call ≠ [0, 0, 0, 7, 123, 34, 105] := by
    simp [digitRequest]
  refine ⟨trace, link, run.of_restrict, ⟨_, readsLength, noCall⟩, ?_⟩
  rintro ⟨sent, part, framed⟩
  obtain ⟨call, _, same⟩ := List.mem_map.mp ((framed.reads 16777216 1).subset readsLength)
  exact noCall call same

end CodeSpace.Runner
