import CodeSpace.Data.Count
import CodeSpace.Domain.Error
import CodeSpace.Transition.Run

namespace CodeSpace.Runner

open Data Domain Transition

/-! `write_host_stdin` of `crates/runner/src/process.rs` on a live pipe process: each call takes the pipe
out of its slot, writes to it over any number of awaits and puts it back. A call that is cancelled at an
await drops the pipe. -/

/-- Where a call is: it knows the slot, it holds the pipe with so much of its data written, or it is
over. -/
inductive WriteStage
  | starting
  | writing (written : Nat)
  | answered (result : Except ErrorBody Unit)
  | cancelled
deriving Repr

structure WriteCall where
  data : List UInt8
  stage : WriteStage := .starting
deriving Repr

/-- The slot of the pipe, whether the pipe was dropped, and what the process got through it. -/
structure HostStdin where
  slot : Bool := true
  dropped : Bool := false
  received : List UInt8 := []
  calls : List WriteCall := []

inductive StdinEvent
  | starts (data : List UInt8)
  | takes (call : Nat)
  | writes (call count : Nat)
  | fails (call : Nat) (message : String)
  | finishes (call : Nat)
  | cancels (call : Nat)
deriving DecidableEq, Repr

def WriteCall.isHolding (call : WriteCall) : Bool :=
  match call.stage with
  | .writing _ => true
  | _ => false

/-- Refused because there is no pipe in the slot. -/
def WriteCall.isRefused (call : WriteCall) : Bool :=
  match call.stage with
  | .answered (.error body) => body.code = .processNotFound
  | _ => false

def WriteCall.isCompleted (call : WriteCall) : Bool :=
  match call.stage with
  | .answered (.ok _) => true
  | _ => false

namespace HostStdin

def setStage (index : Nat) (call : WriteCall) (stage : WriteStage) (stdin : HostStdin) : HostStdin :=
  { stdin with calls := stdin.calls.set index { call with stage := stage } }

def step (stdin : HostStdin) : StdinEvent → Option HostStdin
  | .starts data => some { stdin with calls := stdin.calls ++ [{ data := data }] }
  | .takes index =>
      match stdin.calls[index]? with
      | some ⟨data, .starting⟩ =>
          if stdin.slot then some (setStage index ⟨data, .starting⟩ (.writing 0) { stdin with slot := false })
          else some (stdin.setStage index ⟨data, .starting⟩
            (.answered (.error { code := .processNotFound, message := "stdin is closed" })))
      | _ => none
  | .writes index count =>
      match stdin.calls[index]? with
      | some ⟨data, .writing written⟩ =>
          if 0 < count ∧ written + count ≤ data.length then
            some (setStage index ⟨data, .writing written⟩ (.writing (written + count))
              { stdin with received := stdin.received ++ (data.drop written).take count })
          else none
      | _ => none
  | .fails index message =>
      match stdin.calls[index]? with
      | some ⟨data, .writing written⟩ =>
          some (setStage index ⟨data, .writing written⟩
            (.answered (.error { code := .invalidPatch, message := message })) { stdin with slot := true })
      | _ => none
  | .finishes index =>
      match stdin.calls[index]? with
      | some ⟨data, .writing written⟩ =>
          if written = data.length then
            some (setStage index ⟨data, .writing written⟩ (.answered (.ok ())) { stdin with slot := true })
          else none
      | _ => none
  | .cancels index =>
      match stdin.calls[index]? with
      | some ⟨data, .writing written⟩ =>
          some (setStage index ⟨data, .writing written⟩ .cancelled { stdin with dropped := true })
      | _ => none

end HostStdin

def stdinSystem : System HostStdin StdinEvent where
  initial stdin := stdin = {}
  step before event after := before.step event = some after

variable {before after stdin : HostStdin} {event : StdinEvent} {trace : List StdinEvent}
  {index other written count : Nat} {data : List UInt8} {call : WriteCall}

inductive StdinStep (before : HostStdin) : StdinEvent → HostStdin → Prop
  | starts (data : List UInt8) :
      StdinStep before (.starts data) { before with calls := before.calls ++ [{ data := data }] }
  | takes {index : Nat} {data : List UInt8} (found : before.calls[index]? = some ⟨data, .starting⟩)
      (present : before.slot = true) :
      StdinStep before (.takes index)
        (HostStdin.setStage index ⟨data, .starting⟩ (.writing 0) { before with slot := false })
  | refused {index : Nat} {data : List UInt8} (found : before.calls[index]? = some ⟨data, .starting⟩)
      (absent : before.slot = false) :
      StdinStep before (.takes index)
        (before.setStage index ⟨data, .starting⟩
          (.answered (.error { code := .processNotFound, message := "stdin is closed" })))
  | writes {index written count : Nat} {data : List UInt8}
      (found : before.calls[index]? = some ⟨data, .writing written⟩)
      (within : written + count ≤ data.length) :
      StdinStep before (.writes index count)
        (HostStdin.setStage index ⟨data, .writing written⟩ (.writing (written + count))
          { before with received := before.received ++ (data.drop written).take count })
  | fails {index written : Nat} {data : List UInt8} (message : String)
      (found : before.calls[index]? = some ⟨data, .writing written⟩) :
      StdinStep before (.fails index message)
        (HostStdin.setStage index ⟨data, .writing written⟩
          (.answered (.error { code := .invalidPatch, message := message })) { before with slot := true })
  | finishes {index written : Nat} {data : List UInt8}
      (found : before.calls[index]? = some ⟨data, .writing written⟩) (whole : written = data.length) :
      StdinStep before (.finishes index)
        (HostStdin.setStage index ⟨data, .writing written⟩ (.answered (.ok ())) { before with slot := true })
  | cancels {index written : Nat} {data : List UInt8}
      (found : before.calls[index]? = some ⟨data, .writing written⟩) :
      StdinStep before (.cancels index)
        (HostStdin.setStage index ⟨data, .writing written⟩ .cancelled { before with dropped := true })

theorem StdinStep.of_eq (stepped : before.step event = some after) : StdinStep before event after := by
  cases event with
  | starts data =>
      cases stepped
      exact .starts data
  | takes =>
      simp only [HostStdin.step] at stepped
      split at stepped
      next found =>
        split at stepped
        next present =>
          cases stepped
          exact .takes found present
        next absent =>
          cases stepped
          exact .refused found (eq_false_of_ne_true absent)
      · cases stepped
  | writes =>
      simp only [HostStdin.step] at stepped
      split at stepped
      next found =>
        rw [Option.ite_none_right_eq_some] at stepped
        obtain ⟨within, same⟩ := stepped
        cases same
        exact .writes found within.2
      · cases stepped
  | fails _ message =>
      simp only [HostStdin.step] at stepped
      split at stepped <;> cases stepped
      next found => exact .fails message found
  | finishes =>
      simp only [HostStdin.step] at stepped
      split at stepped
      next found =>
        rw [Option.ite_none_right_eq_some] at stepped
        obtain ⟨whole, same⟩ := stepped
        cases same
        exact .finishes found whole
      · cases stepped
  | cancels =>
      simp only [HostStdin.step] at stepped
      split at stepped <;> cases stepped
      next found => exact .cancels found

/-- The pipe is in one place: in its slot, with one call, or gone. -/
structure PipeOnce (stdin : HostStdin) : Prop where
  placed : stdin.slot = true ∨ stdin.dropped = true ∨
    ∃ (index : Nat) (call : WriteCall), stdin.calls[index]? = some call ∧ call.isHolding = true
  held : ∀ (index : Nat) (call : WriteCall), stdin.calls[index]? = some call → call.isHolding = true →
    stdin.slot = false ∧ stdin.dropped = false
  alone : ∀ (index other : Nat) (call found : WriteCall), stdin.calls[index]? = some call →
    stdin.calls[other]? = some found → call.isHolding = true → found.isHolding = true → index = other
  gone : stdin.dropped = true → stdin.slot = false

namespace PipeOnce

variable (once : PipeOnce before)
include once

section

variable (found : before.calls[index]? = some call)
include found

theorem keeps (stage : WriteStage)
    (calls : after.calls = before.calls.set index { call with stage := stage })
    (same : WriteCall.isHolding { call with stage := stage } = call.isHolding)
    (slot : after.slot = before.slot) (dropped : after.dropped = before.dropped) : PipeOnce after := by
  have earlier {position : Nat} {entry : WriteCall} (isEntry : after.calls[position]? = some entry)
      (holds : entry.isHolding = true) :
      ∃ old, before.calls[position]? = some old ∧ old.isHolding = true := by
    rw [calls] at isEntry
    rcases getElem?_set_cases isEntry with ⟨rfl, rfl⟩ | ⟨_, isOld⟩
    · exact ⟨call, found, same ▸ holds⟩
    · exact ⟨entry, isOld, holds⟩
  refine ⟨?_, fun position entry isEntry holds => ?_,
    fun position other left right isLeft isRight leftHolds rightHolds => ?_, ?_⟩
  · rw [slot, dropped, calls]
    refine once.placed.imp_right (Or.imp_right fun ⟨position, entry, isEntry, holds⟩ => ?_)
    by_cases here : index = position
    · subst here
      rw [found, Option.some.injEq] at isEntry
      subst isEntry
      exact ⟨index, _, List.getElem?_set_self (List.getElem?_eq_some_iff.mp found).1, same.trans holds⟩
    · exact ⟨position, entry, (List.getElem?_set_ne here).trans isEntry, holds⟩
  · obtain ⟨old, isOld, held⟩ := earlier isEntry holds
    rw [slot, dropped]
    exact once.held position old isOld held
  · obtain ⟨oldLeft, isOldLeft, leftHeld⟩ := earlier isLeft leftHolds
    obtain ⟨oldRight, isOldRight, rightHeld⟩ := earlier isRight rightHolds
    exact once.alone position other oldLeft oldRight isOldLeft isOldRight leftHeld rightHeld
  · rw [slot, dropped]
    exact once.gone

theorem take (stage : WriteStage)
    (present : before.slot = true) (holds : WriteCall.isHolding { call with stage := stage } = true)
    (calls : after.calls = before.calls.set index { call with stage := stage })
    (slot : after.slot = false) (dropped : after.dropped = before.dropped) : PipeOnce after := by
  have undropped : before.dropped = false := by
    by_contra gone
    have absent := once.gone (eq_true_of_ne_false gone)
    rw [present] at absent
    cases absent
  have only {position : Nat} {entry : WriteCall} (isEntry : after.calls[position]? = some entry)
      (held : entry.isHolding = true) : position = index := by
    rw [calls] at isEntry
    rcases getElem?_set_cases isEntry with ⟨rfl, _⟩ | ⟨_, isOld⟩
    · rfl
    · have absent := (once.held position entry isOld held).1
      rw [present] at absent
      cases absent
  refine ⟨.inr (.inr ⟨index, _, ?_, holds⟩), fun _ _ _ _ => ⟨slot, dropped.trans undropped⟩,
    fun position other left right isLeft isRight leftHolds rightHolds => ?_, fun _ => slot⟩
  · rw [calls]
    exact List.getElem?_set_self (List.getElem?_eq_some_iff.mp found).1
  · exact (only isLeft leftHolds).trans (only isRight rightHolds).symm

theorem release (stage : WriteStage)
    (held : call.isHolding = true) (isOver : WriteCall.isHolding { call with stage := stage } = false)
    (calls : after.calls = before.calls.set index { call with stage := stage })
    (placed : after.slot = true ∨ after.dropped = true)
    (gone : after.dropped = true → after.slot = false) : PipeOnce after := by
  have none {position : Nat} {entry : WriteCall} (isEntry : after.calls[position]? = some entry)
      (holds : entry.isHolding = true) : False := by
    rw [calls] at isEntry
    rcases getElem?_set_cases isEntry with ⟨_, rfl⟩ | ⟨apart, isOld⟩
    · rw [isOver] at holds
      cases holds
    · exact apart (once.alone position index entry call isOld found holds held)
  exact ⟨placed.imp_right .inl, fun _ _ isEntry holds => (none isEntry holds).elim,
    fun _ _ _ _ isLeft _ leftHolds _ => (none isLeft leftHolds).elim, gone⟩

end

theorem step (stepped : StdinStep before event after) : PipeOnce after := by
  cases stepped with
  | starts data =>
      have earlier {position : Nat} {entry : WriteCall}
          (isEntry : (before.calls ++ [{ data := data }])[position]? = some entry)
          (holds : entry.isHolding = true) : before.calls[position]? = some entry := by
        rcases getElem?_concat_cases isEntry with isOld | ⟨_, rfl⟩
        · exact isOld
        · cases holds
      refine ⟨once.placed.imp_right (Or.imp_right fun ⟨position, entry, isEntry, holds⟩ =>
          ⟨position, entry, getElem?_concat_of_some _ isEntry, holds⟩),
        fun position entry isEntry holds => once.held position entry (earlier isEntry holds) holds,
        fun position other left right isLeft isRight leftHolds rightHolds =>
          once.alone position other left right (earlier isLeft leftHolds) (earlier isRight rightHolds)
            leftHolds rightHolds, once.gone⟩
  | takes found present => exact once.take found _ present rfl rfl rfl rfl
  | refused found | writes found => exact once.keeps found _ rfl rfl rfl rfl
  | @fails index written data message found =>
      have undropped := (once.held index _ found rfl).2
      exact once.release found _ rfl rfl rfl (.inl rfl) fun gone => nomatch undropped.symm.trans gone
  | @finishes index written data found whole =>
      have undropped := (once.held index _ found rfl).2
      exact once.release found _ rfl rfl rfl (.inl rfl) fun gone => nomatch undropped.symm.trans gone
  | cancels found => exact once.release found _ rfl rfl rfl (.inr rfl) fun _ => (once.held _ _ found rfl).1

end PipeOnce

/-- What the process got, in pieces of one call each, in the order in which the calls took the pipe. -/
structure Written (stdin : HostStdin) (pieces : List (Nat × List UInt8)) : Prop where
  received : stdin.received = (pieces.map Prod.snd).flatten
  once : (pieces.map Prod.fst).Nodup
  begins : ∀ piece ∈ pieces, ∃ call, stdin.calls[piece.1]? = some call ∧ piece.2 <+: call.data
  completed : ∀ (index : Nat) (call : WriteCall), stdin.calls[index]? = some call →
    call.isCompleted = true → (index, call.data) ∈ pieces
  starting : ∀ (index : Nat) (data : List UInt8), stdin.calls[index]? = some ⟨data, .starting⟩ →
    index ∉ pieces.map Prod.fst
  writing : ∀ (index : Nat) (data : List UInt8) (written : Nat),
    stdin.calls[index]? = some ⟨data, .writing written⟩ →
    ∃ earlier, pieces = earlier ++ [(index, data.take written)]

namespace Written

variable {pieces : List (Nat × List UInt8)} (holds : Written before pieces)
include holds

theorem begins_set (found : before.calls[index]? = some call) (stage : WriteStage)
    (piece : Nat × List UInt8) (isPiece : piece ∈ pieces) :
    ∃ later, (before.calls.set index { call with stage := stage })[piece.1]? = some later ∧
      piece.2 <+: later.data := by
  obtain ⟨owner, isOwner, isPrefix⟩ := holds.begins piece isPiece
  by_cases here : index = piece.1
  · subst here
    cases found.symm.trans isOwner
    exact ⟨_, List.getElem?_set_self (List.getElem?_eq_some_iff.mp found).1, isPrefix⟩
  · exact ⟨owner, (List.getElem?_set_ne here).trans isOwner, isPrefix⟩

theorem ends (found : before.calls[index]? = some call) (stage : WriteStage)
    (calls : after.calls = before.calls.set index { call with stage := stage })
    (received : after.received = before.received)
    (completes : WriteCall.isCompleted { call with stage := stage } = true → (index, call.data) ∈ pieces)
    (ended : stage ≠ .starting ∧ ∀ count, stage ≠ .writing count) : Written after pieces where
  received := received.trans holds.received
  once := holds.once
  begins := calls ▸ holds.begins_set found stage
  completed position entry isEntry isCompleted := by
    rw [calls] at isEntry
    rcases getElem?_set_cases isEntry with ⟨rfl, rfl⟩ | ⟨_, isOld⟩
    · exact completes isCompleted
    · exact holds.completed position entry isOld isCompleted
  starting position data isEntry := by
    rw [calls] at isEntry
    rcases getElem?_set_cases isEntry with ⟨_, same⟩ | ⟨_, isOld⟩
    · exact absurd (WriteCall.mk.inj same).2.symm ended.1
    · exact holds.starting position data isOld
  writing position data count isEntry := by
    rw [calls] at isEntry
    rcases getElem?_set_cases isEntry with ⟨_, same⟩ | ⟨_, isOld⟩
    · exact absurd (WriteCall.mk.inj same).2.symm (ended.2 count)
    · exact holds.writing position data count isOld

theorem start (data : List UInt8) :
    Written { before with calls := before.calls ++ [{ data := data }] } pieces where
  received := holds.received
  once := holds.once
  begins piece isPiece := by
    obtain ⟨owner, isOwner, isPrefix⟩ := holds.begins piece isPiece
    exact ⟨owner, getElem?_concat_of_some _ isOwner, isPrefix⟩
  completed position entry isEntry isCompleted := by
    rcases getElem?_concat_cases isEntry with isOld | ⟨_, rfl⟩
    · exact holds.completed position entry isOld isCompleted
    · cases isCompleted
  starting position data isEntry := by
    rcases getElem?_concat_cases isEntry with isOld | ⟨rfl, _⟩
    · exact holds.starting position data isOld
    · rintro isOwner
      obtain ⟨piece, isPiece, isLast⟩ := List.mem_map.mp isOwner
      obtain ⟨_, isOwner, _⟩ := holds.begins piece isPiece
      rw [isLast, List.getElem?_eq_none (Nat.le_refl _)] at isOwner
      cases isOwner
  writing position data count isEntry := by
    rcases getElem?_concat_cases isEntry with isOld | ⟨_, same⟩
    · exact holds.writing position data count isOld
    · cases same

theorem take (found : before.calls[index]? = some ⟨data, .starting⟩)
    (free : ∀ (other : Nat) (call : WriteCall), before.calls[other]? = some call → call.isHolding = false) :
    Written (HostStdin.setStage index ⟨data, .starting⟩ (.writing 0) { before with slot := false })
      (pieces ++ [(index, [])]) where
  received := by
    change before.received = _
    simp [holds.received]
  once := by
    rw [List.map_append, List.nodup_append]
    exact ⟨holds.once, List.pairwise_singleton _ _, fun owner isOwner other isOther => by
      rw [List.mem_singleton.mp isOther]
      exact ne_of_mem_of_not_mem isOwner (holds.starting index data found)⟩
  begins piece isPiece := by
    rcases List.mem_append.mp isPiece with isOld | isNew
    · exact holds.begins_set found _ piece isOld
    · rw [List.mem_singleton.mp isNew]
      exact ⟨_, List.getElem?_set_self (List.getElem?_eq_some_iff.mp found).1, List.nil_prefix⟩
  completed position entry isEntry isCompleted := by
    rcases getElem?_set_cases isEntry with ⟨_, rfl⟩ | ⟨_, isOld⟩
    · cases isCompleted
    · exact List.mem_append_left _ (holds.completed position entry isOld isCompleted)
  starting position other isEntry := by
    rcases getElem?_set_cases isEntry with ⟨_, same⟩ | ⟨apart, isOld⟩
    · cases same
    · simpa [apart] using holds.starting position other isOld
  writing position other count isEntry := by
    rcases getElem?_set_cases isEntry with ⟨rfl, same⟩ | ⟨_, isOld⟩
    · cases same
      exact ⟨pieces, rfl⟩
    · cases free position _ isOld

theorem write {earlier : List (Nat × List UInt8)}
    (found : before.calls[index]? = some ⟨data, .writing written⟩)
    (alone : ∀ (other : Nat) (call : WriteCall), before.calls[other]? = some call →
      call.isHolding = true → other = index)
    (isLast : pieces = earlier ++ [(index, data.take written)]) :
    Written (HostStdin.setStage index ⟨data, .writing written⟩ (.writing (written + count))
        { before with received := before.received ++ (data.drop written).take count })
      (earlier ++ [(index, data.take (written + count))]) where
  received := by
    change before.received ++ (data.drop written).take count = _
    rw [holds.received, isLast]
    simp [List.take_add]
  once := by simpa [isLast] using holds.once
  begins piece isPiece := by
    rcases List.mem_append.mp isPiece with isOld | isNew
    · exact holds.begins_set found _ piece (isLast ▸ List.mem_append_left _ isOld)
    · rw [List.mem_singleton.mp isNew]
      exact ⟨_, List.getElem?_set_self (List.getElem?_eq_some_iff.mp found).1, List.take_prefix _ _⟩
  completed position entry isEntry isCompleted := by
    rcases getElem?_set_cases isEntry with ⟨_, rfl⟩ | ⟨apart, isOld⟩
    · cases isCompleted
    · have isPiece := holds.completed position entry isOld isCompleted
      rw [isLast, List.mem_append, List.mem_singleton, Prod.mk.injEq] at isPiece
      exact List.mem_append_left _ (isPiece.resolve_right fun same => apart same.1)
  starting position other isEntry := by
    rcases getElem?_set_cases isEntry with ⟨_, same⟩ | ⟨_, isOld⟩
    · cases same
    · simpa [isLast] using holds.starting position other isOld
  writing position other more isEntry := by
    rcases getElem?_set_cases isEntry with ⟨rfl, same⟩ | ⟨apart, isOld⟩
    · cases same
      exact ⟨earlier, rfl⟩
    · exact absurd (alone position _ isOld rfl) apart

theorem step (once : PipeOnce before) (stepped : StdinStep before event after) :
    ∃ later, Written after later := by
  cases stepped with
  | starts data => exact ⟨pieces, holds.start data⟩
  | @takes index data found present =>
      refine ⟨_, holds.take found fun other call isCall => ?_⟩
      by_contra held
      cases present.symm.trans (once.held other call isCall (eq_true_of_ne_false held)).1
  | refused found | fails _ found | cancels found =>
      exact ⟨pieces, holds.ends found _ rfl rfl nofun ⟨nofun, nofun⟩⟩
  | @finishes index written data found whole =>
      refine ⟨pieces, holds.ends found _ rfl rfl (fun _ => ?_) ⟨nofun, nofun⟩⟩
      obtain ⟨earlier, isLast⟩ := holds.writing index data written found
      rw [whole, List.take_length] at isLast
      exact isLast ▸ List.mem_append_right _ (List.mem_singleton_self _)
  | @writes index written count data found within =>
      obtain ⟨_, isLast⟩ := holds.writing index data written found
      exact ⟨_, holds.write found (fun other call isCall held =>
        once.alone other index call _ isCall found held rfl) isLast⟩

end Written

theorem stdin_kept (run : stdinSystem.Run {} trace stdin) :
    PipeOnce stdin ∧ ∃ pieces, Written stdin pieces := by
  refine run.keeps (fun stdin => PipeOnce stdin ∧ ∃ pieces, Written stdin pieces) ?_
    ⟨⟨.inl rfl, by simp, by simp, nofun⟩, [], rfl, List.nodup_nil, by simp, by simp, by simp, by simp⟩
  rintro before after event stepped ⟨once, pieces, holds⟩
  exact ⟨once.step (.of_eq stepped), holds.step once (.of_eq stepped)⟩

/-- No call looks for the pipe while another holds it, and none is cancelled while it holds the pipe. -/
def Alone (stdin : HostStdin) : StdinEvent → Prop
  | .takes _ => stdin.calls.all (fun call => !call.isHolding) = true
  | .cancels _ => False
  | _ => True

instance (stdin : HostStdin) (event : StdinEvent) : Decidable (Alone stdin event) := by
  cases event <;> unfold Alone <;> infer_instance

/-- The pipe is open and no call found it missing. -/
def HostStdin.IsServed (stdin : HostStdin) : Prop :=
  (∀ call ∈ stdin.calls, call.isRefused = false) ∧ stdin.dropped = false

theorem HostStdin.isServed_set {later : WriteCall} {condition : Prop}
    (found : before.calls[index]? = some call) (unrefused : call.isRefused = false)
    (calls : after.calls = before.calls.set index later) (dropped : after.dropped = before.dropped)
    (unrefusedIff : before.IsServed → (later.isRefused = false ↔ condition)) :
    after.IsServed ↔ before.IsServed ∧ condition := by
  rw [← and_congr_right unrefusedIff]
  have here : (before.calls.set index later)[index]? = some later :=
    List.getElem?_set_self (List.getElem?_eq_some_iff.mp found).1
  unfold IsServed
  rw [calls, dropped]
  constructor
  · rintro ⟨none, isOpen⟩
    refine ⟨⟨fun other isOther => ?_, isOpen⟩, none later (List.mem_of_getElem? here)⟩
    obtain ⟨position, isPosition⟩ := List.mem_iff_getElem?.mp isOther
    by_cases same : index = position
    · cases found.symm.trans (same ▸ isPosition)
      exact unrefused
    · exact none other (List.mem_of_getElem? ((List.getElem?_set_ne same).trans isPosition))
  · rintro ⟨⟨none, isOpen⟩, alsoLater⟩
    refine ⟨fun other isOther => ?_, isOpen⟩
    rcases List.mem_or_eq_of_mem_set isOther with isOld | rfl
    · exact none other isOld
    · exact alsoLater

/-- A step leaves the pipe open and no call without it exactly if they were so before and the step does
not overlap with another call. -/
theorem isServed_step (once : PipeOnce before) (stepped : StdinStep before event after) :
    after.IsServed ↔ before.IsServed ∧ Alone before event := by
  cases stepped with
  | starts => simp [HostStdin.IsServed, Alone, or_imp, forall_and, WriteCall.isRefused]
  | @takes index data found present =>
      have free : Alone before (.takes index) := by
        refine List.all_eq_true.mpr fun call isCall => ?_
        obtain ⟨position, isPosition⟩ := List.mem_iff_getElem?.mp isCall
        by_contra held
        have absent := (once.held position call isPosition (by simpa using held)).1
        cases present.symm.trans absent
      exact HostStdin.isServed_set found rfl rfl rfl fun _ => iff_of_true rfl free
  | @refused index data found absent =>
      refine HostStdin.isServed_set found rfl rfl rfl fun served => iff_of_false nofun fun free => ?_
      rcases once.placed with there | gone | ⟨position, call, isCall, holds⟩
      · cases absent.symm.trans there
      · cases served.2.symm.trans gone
      · have unheld := List.all_eq_true.mp free call (List.mem_of_getElem? isCall)
        simp [holds] at unheld
  | writes found | fails _ found | finishes found =>
      exact HostStdin.isServed_set found rfl rfl rfl fun _ => iff_of_true rfl trivial
  | cancels => exact iff_of_false (fun served => nomatch served.2) fun served => served.2

/-- What the process gets are pieces, one for each call that took the pipe, and that of a completed call
is its data, whatever the other calls do. No call is refused and the pipe stays open exactly where the
calls do not overlap and none is cancelled with the pipe. -/
theorem stdin_writes_arrive (run : stdinSystem.Run {} trace stdin) :
    (∃ pieces : List (Nat × List UInt8), stdin.received = (pieces.map Prod.snd).flatten ∧
      (pieces.map Prod.fst).Nodup ∧
      (∀ piece ∈ pieces, ∃ call, stdin.calls[piece.1]? = some call ∧ piece.2 <+: call.data) ∧
      ∀ (index : Nat) (call : WriteCall), stdin.calls[index]? = some call →
        call.isCompleted = true → (index, call.data) ∈ pieces) ∧
    ((stdinSystem.restrict Alone).Run {} trace stdin ↔
      (∀ call ∈ stdin.calls, call.isRefused = false) ∧ stdin.dropped = false) := by
  obtain ⟨_, pieces, written⟩ := stdin_kept run
  have keeps {before after : HostStdin} {event : StdinEvent} (stepped : stdinSystem.step before event after)
      (once : PipeOnce before) : PipeOnce after := once.step (.of_eq stepped)
  have atStart : PipeOnce {} := (stdin_kept (.refl _)).1
  refine ⟨⟨pieces, written.received, written.once, written.begins, written.completed⟩, fun alone => ?_,
    fun served => ?_⟩
  · refine (alone.keeps (fun stdin => PipeOnce stdin ∧ stdin.IsServed) ?_
      ⟨atStart, by simp, rfl⟩).2
    rintro before after event ⟨isAlone, stepped⟩ ⟨once, served⟩
    exact ⟨keeps stepped once, (isServed_step once (.of_eq stepped)).mpr ⟨served, isAlone⟩⟩
  · exact (run.restricted PipeOnce HostStdin.IsServed keeps
      (fun stepped once => (isServed_step once (.of_eq stepped)).mp) atStart served).2

/-- Two calls after each other, the first of them in two writes. -/
theorem two_writes_arrive : ∃ trace stdin, (stdinSystem.restrict Alone).Run {} trace stdin ∧
      stdin.calls.map WriteCall.isCompleted = [true, true] ∧
      ∀ call ∈ stdin.calls, call.isRefused = false := by
  obtain ⟨trace, stdin, run, completed⟩ := stdinSystem.exists_event_run (fun stepped => stepped) Alone {}
    [.starts [97, 98], .takes 0, .writes 0 1, .starts [99], .writes 0 1, .finishes 0, .takes 1,
      .writes 1 1, .finishes 1] (fun stdin => stdin.calls.map WriteCall.isCompleted = [true, true])
    (by decide +kernel)
  exact ⟨trace, stdin, run, completed, ((stdin_writes_arrive run.of_restrict).2.mp run).1⟩

/-- A call that comes while another holds the pipe is refused, though the pipe is open and no write has
failed; and a call that is cancelled with the pipe closes it for the next one. -/
theorem overlapping_write_is_refused :
    (∃ trace stdin, stdinSystem.Run {} trace stdin ∧ stdin.dropped = false ∧
      (∀ event ∈ trace, ∀ call message, event ≠ .fails call message) ∧
      stdin.calls.map WriteCall.isRefused = [false, true]) ∧
    ∃ trace stdin, stdinSystem.Run {} trace stdin ∧ stdin.dropped = true ∧
      stdin.calls.map WriteCall.isRefused = [false, true] := by
  constructor
  · have run : stdinSystem.Run {} [.starts [97, 98], .starts [99], .takes 0, .writes 0 1, .takes 1]
        ⟨false, false, [97], [⟨[97, 98], .writing 1⟩, ⟨[99], .answered (.error
          { code := .processNotFound, message := "stdin is closed" })⟩]⟩ :=
      .cons rfl (.cons rfl (.cons rfl (.cons rfl (.cons rfl (.refl _)))))
    exact ⟨_, _, run, rfl, by simp, by decide⟩
  · obtain ⟨trace, stdin, run, holds⟩ := stdinSystem.exists_event_run (fun stepped => stepped)
      (fun _ _ => True) {} [.starts [97, 98], .takes 0, .writes 0 1, .cancels 0, .starts [99], .takes 1]
      (fun stdin => stdin.dropped = true ∧ stdin.calls.map WriteCall.isRefused = [false, true])
      (by decide +kernel)
    exact ⟨trace, stdin, run.of_restrict, holds⟩

end CodeSpace.Runner
