import CodeSpace.Runner.HostProcess

namespace CodeSpace.Runner

open Data

/-! What a process's output buffer keeps and what its readers get of it, over any run of its pumps, its
tasks and its readers. -/

variable {start before after host : HostProcess} {event : HostEvent} {notice : HostNotice}
  {label : HostLabel} {trace : List HostLabel} {buf : OutputBuf}
  {history : List UInt8} {cap reader asked : Nat}

theorem OutputBuf.append_eof (chunk : List UInt8) : (buf.append cap chunk).eof = buf.eof := by
  unfold append
  simp only
  split <;> rfl

theorem OutputBuf.append_timedOut (chunk : List UInt8) :
    (buf.append cap chunk).timedOut = buf.timedOut := by
  unfold append
  simp only
  split <;> rfl

/-- What a step does to the output and to its pumps. -/
inductive OutputMove (before after : HostProcess) : HostEvent → Prop
  | appended (pump : Pump) (chunk : List UInt8) (pumped : pump ∈ before.pumps)
      (output : after.output = before.output.append before.cap chunk)
      (pumps : after.pumps = before.pumps) : OutputMove before after (.appends pump chunk)
  | ended (event : HostEvent) (other : ∀ pump chunk, event ≠ .appends pump chunk)
      (joined : before.pumps = []) (output : after.output = { before.output with eof := true })
      (pumps : after.pumps = before.pumps) : OutputMove before after event
  | marked (event : HostEvent) (other : ∀ pump chunk, event ≠ .appends pump chunk)
      (output : after.output = { before.output with timedOut := true })
      (pumps : after.pumps = before.pumps) : OutputMove before after event
  | kept (event : HostEvent) (other : ∀ pump chunk, event ≠ .appends pump chunk)
      (output : after.output = before.output) (pumps : after.pumps ⊆ before.pumps) :
      OutputMove before after event

namespace OutputMove

theorem stays (event : HostEvent) (other : ∀ pump chunk, event ≠ .appends pump chunk)
    (output : after.output = before.output) (pumps : after.pumps = before.pumps) :
    OutputMove before after event :=
  .kept event other output (pumps ▸ List.Subset.refl _)

theorem of_timerStep (stepped : TimerStep before notice after) :
    after.cap = before.cap ∧ OutputMove before after .timer := by
  cases stepped with
  | marks => exact ⟨rfl, .marked _ (by simp) rfl rfl⟩
  | late | kills | notes | killsNoted => exact ⟨rfl, stays _ (by simp) rfl rfl⟩

theorem of_waiterStep (stepped : WaiterStep before notice after) :
    after.cap = before.cap ∧ OutputMove before after .waiter := by
  cases stepped with
  | ends _ joined => exact ⟨rfl, .ended _ (by simp) joined rfl rfl⟩
  | finished | sees | waits | reported | unseen | reaps => exact ⟨rfl, stays _ (by simp) rfl rfl⟩

theorem of_step (stepped : before.step event = some (notice, after)) :
    after.cap = before.cap ∧ OutputMove before after event := by
  cases event with
  | appends pump chunk =>
      simp only [HostProcess.step, Option.ite_none_right_eq_some, Option.some.injEq] at stepped
      obtain ⟨pumped, same⟩ := stepped
      cases same
      exact ⟨rfl, .appended pump chunk pumped rfl rfl⟩
  | pumpEnds =>
      simp only [HostProcess.step, Option.ite_none_right_eq_some, Option.some.injEq] at stepped
      obtain ⟨_, same⟩ := stepped
      cases same
      exact ⟨rfl, .kept _ (by simp) rfl fun _ => List.mem_of_mem_filter⟩
  | terminates =>
      simp only [HostProcess.step, HostProcess.requestKill] at stepped
      split at stepped <;>
      · cases stepped
        exact ⟨rfl, stays _ (by simp) rfl rfl⟩
  | timer => exact of_timerStep (.of_eq stepped)
  | waiter => exact of_waiterStep (.of_eq stepped)
  | reads =>
      cases stepped
      exact ⟨rfl, stays _ (by simp) rfl rfl⟩
  | exits | marks | reaps | reports | loses =>
      simp only [HostProcess.step] at stepped
      split at stepped <;> cases stepped <;> exact ⟨rfl, stays _ (by simp) rfl rfl⟩

end OutputMove

/-- The buffer counts all of the history and holds its last bytes, as many as the cap lets it. -/
structure Retains (cap : Nat) (history : List UInt8) (buf : OutputBuf) : Prop where
  total : buf.total = history.length
  dropped : buf.dropped = history.length - cap
  bytes : buf.bytes = history.drop (history.length - cap)

namespace Retains

variable (retains : Retains cap history buf)
include retains

theorem length : buf.bytes.length = history.length - (history.length - cap) := by
  rw [retains.bytes, List.length_drop]

theorem append (chunk : List UInt8) : Retains cap (history ++ chunk) (buf.append cap chunk) := by
  have grown : buf.bytes ++ chunk = (history ++ chunk).drop (history.length - cap) := by
    rw [retains.bytes, List.drop_append_of_le_length (Nat.sub_le ..)]
  have length := retains.length
  have dropped := retains.dropped
  unfold OutputBuf.append
  simp only [List.length_append]
  split
  · refine ⟨?_, ?_, ?_⟩
    · simp [retains.total]
    · simp only [List.length_append]
      omega
    · simp only [grown, List.drop_drop, List.length_append]
      congr 1
      omega
  · refine ⟨?_, ?_, ?_⟩
    · simp [retains.total]
    · simp only [List.length_append]
      omega
    · simp only [grown, List.length_append]
      congr 1
      omega

theorem slice (cursor : Nat) : buf.slice cursor = history.drop (max cursor buf.dropped) := by
  have length := retains.length
  have dropped := retains.dropped
  simp only [OutputBuf.slice]
  split
  · symm
    rw [List.drop_eq_nil_iff]
    omega
  · rw [retains.bytes, List.drop_drop]
    congr 1
    omega

end Retains

def HostLabel.chunk (label : HostLabel) : List UInt8 :=
  match label.event with
  | .appends _ chunk => chunk
  | _ => []

/-- Everything that was appended to the output, in order. -/
def appended (trace : List HostLabel) : List UInt8 :=
  trace.flatMap HostLabel.chunk

/-- A read that was answered, with the bytes of its text. -/
structure Delivery where
  bytes : List UInt8
  result : RunnerReadResult
deriving DecidableEq

def HostLabel.delivery? (reader : Nat) (label : HostLabel) : Option Delivery :=
  match label.event, label.notice with
  | .reads other _, .answered bytes (.ok result) =>
      if other = reader then some ⟨bytes, result⟩ else none
  | _, _ => none

def deliveries (reader : Nat) (trace : List HostLabel) : List Delivery :=
  trace.filterMap (HostLabel.delivery? reader)

/-- The cursor that a reader passes next who began at this one. -/
def nextCursor (asked : Nat) (delivered : List Delivery) : Nat :=
  delivered.foldl (fun _ delivery => delivery.result.cursor) asked

def HostLabel.asks? (reader : Nat) (label : HostLabel) : Option Nat :=
  match label.event with
  | .reads other cursor => if other = reader then some cursor else none
  | _ => none

/-- The reader begins at this cursor and passes each returned one to the next read. -/
def ReadsOn (reader : Nat) : Nat → List HostLabel → Prop
  | _, [] => True
  | asked, label :: rest =>
      (∀ cursor ∈ label.asks? reader, cursor = asked) ∧
        ReadsOn reader (nextCursor asked (label.delivery? reader).toList) rest

instance ReadsOn.decidable (reader : Nat) :
    (asked : Nat) → (trace : List HostLabel) → Decidable (ReadsOn reader asked trace)
  | _, [] => .isTrue trivial
  | asked, label :: rest =>
      have := ReadsOn.decidable reader (nextCursor asked (label.delivery? reader).toList) rest
      inferInstanceAs (Decidable ((∀ cursor ∈ label.asks? reader, cursor = asked) ∧
        ReadsOn reader (nextCursor asked (label.delivery? reader).toList) rest))

/-- The reader begins at zero and passes each returned cursor to the next read. -/
def Sequential (reader : Nat) (trace : List HostLabel) : Prop :=
  ReadsOn reader 0 trace

instance (reader : Nat) (trace : List HostLabel) : Decidable (Sequential reader trace) :=
  ReadsOn.decidable reader 0 trace

/-- A read at this cursor got the bytes of the stream from there on, or from what the buffer still
held, up to the cursor it returned. -/
structure Delivered (cap : Nat) (history : List UInt8) (asked : Nat) (delivery : Delivery) : Prop where
  cursor : delivery.result.cursor = max asked delivery.result.retainedFrom + delivery.bytes.length
  bytes : delivery.bytes =
    (history.drop (max asked delivery.result.retainedFrom)).take delivery.bytes.length
  within : delivery.result.cursor ≤ history.length
  trimmed : delivery.result.retainedFrom ≤ history.length - cap
  ending : delivery.result.eof = true → delivery.result.cursor = history.length
  text : delivery.result.chunk = String.ofList (Utf8.decodeLossy delivery.bytes)

/-- The reads in order, each asked at the cursor that the one before returned. -/
def AllDelivered (cap : Nat) (history : List UInt8) : Nat → List Delivery → Prop
  | _, [] => True
  | asked, delivery :: rest =>
      Delivered cap history asked delivery ∧ AllDelivered cap history delivery.result.cursor rest

theorem appended_snoc (trace : List HostLabel) (label : HostLabel) :
    appended (trace ++ [label]) = appended trace ++ label.chunk := by
  simp [appended]

theorem deliveries_snoc (reader : Nat) (trace : List HostLabel) (label : HostLabel) :
    deliveries reader (trace ++ [label]) =
      deliveries reader trace ++ (label.delivery? reader).toList := by
  cases found : label.delivery? reader with
  | none | some => simp [deliveries, found]

theorem HostLabel.chunk_of_other (other : ∀ pump chunk, label.event ≠ .appends pump chunk) :
    label.chunk = [] := by
  unfold chunk
  split
  next pump chunk isAppend => exact absurd isAppend (other pump chunk)
  · rfl

theorem nextCursor_append (asked : Nat) (delivered others : List Delivery) :
    nextCursor asked (delivered ++ others) = nextCursor (nextCursor asked delivered) others := by
  simp [nextCursor]

theorem ReadsOn.snoc (reads : ReadsOn reader asked (trace ++ [label])) : ReadsOn reader asked trace ∧
      ∀ cursor ∈ label.asks? reader, cursor = nextCursor asked (deliveries reader trace) := by
  induction trace generalizing asked with
  | nil => exact ⟨trivial, reads.1⟩
  | cons first trace ih =>
      obtain ⟨here, reads⟩ := reads
      obtain ⟨earlier, last⟩ := ih reads
      refine ⟨⟨here, earlier⟩, fun cursor asks => ?_⟩
      have whole : deliveries reader (first :: trace) =
          (first.delivery? reader).toList ++ deliveries reader trace := by
        cases found : first.delivery? reader with
        | none | some => simp [deliveries, found]
      rw [whole, nextCursor_append]
      exact last cursor asks

theorem Delivered.grows {delivery : Delivery} (delivered : Delivered cap history asked delivery)
    {chunk : List UInt8} (unended : delivery.result.eof = true → chunk = []) :
    Delivered cap (history ++ chunk) asked delivery where
  cursor := delivered.cursor
  bytes := by
    have within := delivered.within
    have cursor := delivered.cursor
    rw [List.drop_append_of_le_length (by omega), List.take_append_of_le_length]
    · exact delivered.bytes
    · rw [List.length_drop]
      omega
  within := by
    rw [List.length_append]
    exact Nat.le_add_right_of_le delivered.within
  trimmed := by
    have trimmed := delivered.trimmed
    rw [List.length_append]
    omega
  ending := by
    intro eof
    rw [unended eof, List.append_nil]
    exact delivered.ending eof
  text := delivered.text

theorem AllDelivered.grows {delivered : List Delivery}
    (all : AllDelivered cap history asked delivered) {chunk : List UInt8}
    (unended : ∀ delivery ∈ delivered, delivery.result.eof = true → chunk = []) :
    AllDelivered cap (history ++ chunk) asked delivered := by
  induction delivered generalizing asked with
  | nil => trivial
  | cons delivery _ ih =>
      exact ⟨all.1.grows (unended delivery List.mem_cons_self),
        ih all.2 fun other isOther => unended other (List.mem_cons_of_mem _ isOther)⟩

theorem AllDelivered.snoc {delivered : List Delivery} {delivery : Delivery}
    (all : AllDelivered cap history asked delivered)
    (last : Delivered cap history (nextCursor asked delivered) delivery) :
    AllDelivered cap history asked (delivered ++ [delivery]) := by
  induction delivered generalizing asked with
  | nil => exact ⟨last, trivial⟩
  | cons _ _ ih => exact ⟨all.1, ih all.2 last⟩

theorem Retains.delivered (retains : Retains cap history buf) {processId : String}
    {result : RunnerReadResult} (answered : buf.read processId asked = .ok result)
    (known : asked ≤ history.length) :
    Delivered cap history asked ⟨buf.slice asked, result⟩ ∧ (result.eof = true → buf.eof = true) := by
  have slice := retains.slice asked
  have dropped := retains.dropped
  have total := retains.total
  have length : (buf.slice asked).length = history.length - max asked buf.dropped := by
    rw [slice, List.length_drop]
  unfold OutputBuf.read at answered
  split at answered
  · cases answered
  · cases answered
    simp only [Bool.and_eq_true, decide_eq_true_eq]
    refine ⟨⟨rfl, ?_, ?_, ?_, ?_, rfl⟩, And.left⟩
    · simp only [slice, List.take_length]
    · simp only
      omega
    · simp only
      omega
    · simp only [Bool.and_eq_true, decide_eq_true_eq]
      omega

theorem OutputMove.flags (move : OutputMove before after event) :
    (before.output.eof = true → after.output.eof = true) ∧
      (before.output.timedOut = true → after.output.timedOut = true) := by
  cases move with
  | appended _ _ _ output =>
      rw [output, OutputBuf.append_eof, OutputBuf.append_timedOut]
      exact ⟨id, id⟩
  | ended _ _ _ output =>
      rw [output]
      exact ⟨fun _ => rfl, id⟩
  | marked _ _ output =>
      rw [output]
      exact ⟨id, fun _ => rfl⟩
  | kept _ _ output =>
      rw [output]
      exact ⟨id, id⟩

structure OutputKept (trace : List HostLabel) (host : HostProcess) : Prop where
  retains : Retains host.cap (appended trace) host.output
  ended : host.output.eof = true → host.pumps = []

structure ReaderServed (reader : Nat) (trace : List HostLabel) (host : HostProcess) : Prop where
  all : AllDelivered host.cap (appended trace) 0 (deliveries reader trace)
  cursor : nextCursor 0 (deliveries reader trace) ≤ (appended trace).length
  ending : ∀ delivery ∈ deliveries reader trace, delivery.result.eof = true → host.output.eof = true

theorem OutputKept.step (kept : OutputKept trace before)
    (stepped : hostSystem.step before label after) : OutputKept (trace ++ [label]) after := by
  obtain ⟨sameCap, move⟩ := OutputMove.of_step stepped
  generalize labelled : label.event = event at move
  cases move with
  | appended _ chunk pumped output =>
      have chunks : label.chunk = chunk := by simp [HostLabel.chunk, labelled]
      refine ⟨?_, fun eof => ?_⟩
      · rw [appended_snoc, chunks, sameCap, output]
        exact kept.retains.append chunk
      · rw [output, OutputBuf.append_eof] at eof
        rw [kept.ended eof] at pumped
        cases pumped
  | ended _ other joined output pumps =>
      rw [← labelled] at other
      refine ⟨?_, fun _ => pumps.trans joined⟩
      rw [appended_snoc, HostLabel.chunk_of_other other, List.append_nil, sameCap, output]
      exact ⟨kept.retains.total, kept.retains.dropped, kept.retains.bytes⟩
  | marked _ other output pumps =>
      rw [← labelled] at other
      refine ⟨?_, fun eof => ?_⟩
      · rw [appended_snoc, HostLabel.chunk_of_other other, List.append_nil, sameCap, output]
        exact ⟨kept.retains.total, kept.retains.dropped, kept.retains.bytes⟩
      · rw [output] at eof
        exact pumps.trans (kept.ended eof)
  | kept _ other output pumps =>
      rw [← labelled] at other
      refine ⟨?_, fun eof => ?_⟩
      · rw [appended_snoc, HostLabel.chunk_of_other other, List.append_nil, sameCap, output]
        exact kept.retains
      · rw [output] at eof
        exact List.subset_nil.mp (kept.ended eof ▸ pumps)

theorem delivery_of_step {delivery : Delivery} (stepped : hostSystem.step before label after)
    (found : label.delivery? reader = some delivery) :
    ∃ cursor, label = ⟨.reads reader cursor, .answered (before.output.slice cursor) (.ok delivery.result)⟩ ∧
      delivery.bytes = before.output.slice cursor ∧
      after = before ∧ before.output.read before.processId cursor = .ok delivery.result := by
  obtain ⟨_, _⟩ := label
  unfold HostLabel.delivery? at found
  split at found
  next cursor _ _ isRead isAnswer =>
    cases isRead
    cases isAnswer
    obtain ⟨rfl, same⟩ := Option.ite_none_right_eq_some.mp found
    cases same
    simp only [hostSystem, HostProcess.step, Option.some.injEq, Prod.mk.injEq,
      HostNotice.answered.injEq] at stepped
    obtain ⟨⟨rfl, answered⟩, rfl⟩ := stepped
    exact ⟨cursor, rfl, rfl, rfl, answered⟩
  · cases found

theorem ReaderServed.step (served : ReaderServed reader trace before) (kept : OutputKept trace before)
    (sequential : Sequential reader (trace ++ [label]))
    (stepped : hostSystem.step before label after) : ReaderServed reader (trace ++ [label]) after := by
  obtain ⟨sameCap, move⟩ := OutputMove.of_step stepped
  have grown : (appended trace).length ≤ (appended (trace ++ [label])).length := by
    rw [appended_snoc, List.length_append]
    exact Nat.le_add_right ..
  have all : AllDelivered after.cap (appended (trace ++ [label])) 0 (deliveries reader trace) := by
    rw [appended_snoc, sameCap]
    refine served.all.grows fun delivery isDelivery eof => ?_
    have joined := kept.ended (served.ending delivery isDelivery eof)
    refine HostLabel.chunk_of_other fun pump chunk isAppend => ?_
    rw [isAppend] at move
    cases move with
    | appended _ _ pumped =>
        rw [joined] at pumped
        cases pumped
    | ended _ other | marked _ other | kept _ other => exact other pump chunk rfl
  cases found : label.delivery? reader with
  | none =>
      have same : deliveries reader (trace ++ [label]) = deliveries reader trace := by
        rw [deliveries_snoc, found, Option.toList_none, List.append_nil]
      rw [← same] at all
      refine ⟨all, ?_, fun delivery isDelivery eof => ?_⟩
      · rw [same]
        exact Nat.le_trans served.cursor grown
      · rw [same] at isDelivery
        exact move.flags.1 (served.ending delivery isDelivery eof)
  | some =>
      obtain ⟨cursor, rfl, isSlice, same, answered⟩ := delivery_of_step stepped found
      obtain rfl : cursor = nextCursor 0 (deliveries reader trace) :=
        sequential.snoc.2 cursor (by simp [HostLabel.asks?])
      have noChunk (notice : HostNotice) :
          HostLabel.chunk ⟨.reads reader (nextCursor 0 (deliveries reader trace)), notice⟩ = [] := rfl
      rw [appended_snoc, noChunk, List.append_nil, same] at all
      obtain ⟨delivered, eofSeen⟩ := kept.retains.delivered answered served.cursor
      rw [← isSlice] at delivered
      refine ⟨?_, ?_, fun other isOther eof => ?_⟩
      · rw [deliveries_snoc, found, appended_snoc, noChunk, List.append_nil, same]
        exact all.snoc delivered
      · rw [deliveries_snoc, found, appended_snoc, noChunk, List.append_nil]
        simpa [nextCursor] using delivered.within
      · rw [deliveries_snoc, found] at isOther
        rw [same]
        rcases List.mem_append.mp isOther with before | isLast
        · exact served.ending other before eof
        · rw [List.mem_singleton.mp isLast] at eof
          exact eofSeen eof

theorem output_run (isInitial : hostSystem.initial start) (run : hostSystem.Run start trace host) :
    OutputKept trace host ∧ ∀ reader, Sequential reader trace → ReaderServed reader trace host := by
  have unread : OutputKept [] start ∧ ∀ reader, Sequential reader [] → ReaderServed reader [] start := by
    obtain ⟨_, _, _, rfl⟩ := isInitial
    refine ⟨⟨⟨rfl, ?_, ?_⟩, nofun⟩, fun reader _ => ⟨trivial, Nat.le_refl _, nofun⟩⟩
    · exact (Nat.zero_sub _).symm
    · exact List.drop_nil.symm
  refine run.records (fun trace host => OutputKept trace host ∧
    ∀ reader, Sequential reader trace → ReaderServed reader trace host) ?_ unread
  rintro earlier before after label ⟨kept, served⟩ stepped
  exact ⟨kept.step stepped, fun reader sequential =>
    (served reader sequential.snoc.1).step kept sequential stepped⟩

/-- In every run of a process: the buffer counts the whole output and holds its last bytes, as many as
the cap lets it; a reader that begins at zero and passes each returned cursor on gets the stream in
order and without repetition, short of nothing but what lies between a cursor it asked for and a larger
`retained_from`; and the end is reported only once the output has ended and all of it up to there was
returned. -/
theorem output_is_kept_and_read_in_order (isInitial : hostSystem.initial start)
    (run : hostSystem.Run start trace host) :
    host.output.total = host.output.dropped + host.output.bytes.length ∧
    host.output.bytes.length ≤ host.cap ∧
    host.output.total = (appended trace).length ∧
    host.output.bytes = (appended trace).drop ((appended trace).length - min host.output.total host.cap) ∧
    ∀ reader, Sequential reader trace →
      AllDelivered host.cap (appended trace) 0 (deliveries reader trace) ∧
      ∀ delivery ∈ deliveries reader trace, delivery.result.eof = true →
        host.output.eof = true ∧ host.pumps = [] := by
  obtain ⟨kept, served⟩ := output_run isInitial run
  have total := kept.retains.total
  have dropped := kept.retains.dropped
  have length := kept.retains.length
  refine ⟨by omega, by omega, total, ?_, fun reader sequential => ?_⟩
  · rw [kept.retains.bytes]
    congr 1
    omega
  · have reads := served reader sequential
    refine ⟨reads.all, fun delivery isDelivery eof => ?_⟩
    have ended := reads.ending delivery isDelivery eof
    exact ⟨ended, kept.ended ended⟩

theorem AllDelivered.bytes {delivered : List Delivery} (within : history.length ≤ cap)
    (all : AllDelivered cap history asked delivered) :
    asked ≤ nextCursor asked delivered ∧ (delivered.map Delivery.bytes).flatten =
        (history.drop asked).take (nextCursor asked delivered - asked) := by
  induction delivered generalizing asked with
  | nil => simp [nextCursor]
  | cons delivery rest ih =>
      obtain ⟨first, others⟩ := all
      have untrimmed : delivery.result.retainedFrom = 0 := by
        have trimmed := first.trimmed
        omega
      have cursor : delivery.result.cursor = asked + delivery.bytes.length := by
        simpa [untrimmed] using first.cursor
      have bytes : delivery.bytes = (history.drop asked).take delivery.bytes.length := by
        simpa [untrimmed] using first.bytes
      obtain ⟨later, others⟩ := ih others
      rw [cursor] at later others
      have next : nextCursor asked (delivery :: rest) = nextCursor delivery.result.cursor rest := rfl
      rw [next, cursor]
      refine ⟨by omega, ?_⟩
      rw [List.map_cons, List.flatten_cons, others, ← List.drop_drop]
      nth_rewrite 1 [bytes]
      rw [← List.take_add]
      congr 1
      omega

theorem AllDelivered.last {delivered : List Delivery} {last : Delivery}
    (all : AllDelivered cap history asked (delivered ++ [last])) :
    ∃ asked, Delivered cap history asked last := by
  induction delivered generalizing asked with
  | nil => exact ⟨asked, all.1⟩
  | cons _ _ ih => exact ih all.2

theorem AllDelivered.text {delivered : List Delivery} (all : AllDelivered cap history asked delivered) :
    delivered.map (fun delivery => delivery.result.chunk.toList) =
      delivered.map fun delivery => Utf8.decodeLossy delivery.bytes := by
  induction delivered generalizing asked with
  | nil => rfl
  | cons _ _ ih => rw [List.map_cons, List.map_cons, ih all.2, all.1.text, String.toList_ofList]

theorem AllDelivered.left {delivered others : List Delivery}
    (all : AllDelivered cap history asked (delivered ++ others)) :
    AllDelivered cap history asked delivered := by
  induction delivered generalizing asked with
  | nil => exact trivial
  | cons _ _ ih => exact ⟨all.1, ih all.2⟩

/-- A read's cursor parts what was read up to it from what comes later. -/
theorem AllDelivered.cut {delivered others : List Delivery} {delivery : Delivery}
    (within : history.length ≤ cap)
    (all : AllDelivered cap history 0 (delivered ++ [delivery] ++ others))
    (whole : ((delivered ++ [delivery] ++ others).map Delivery.bytes).flatten = history) :
    ((delivered ++ [delivery]).map Delivery.bytes).flatten = history.take delivery.result.cursor ∧
      (others.map Delivery.bytes).flatten = history.drop delivery.result.cursor := by
  have upTo : nextCursor 0 (delivered ++ [delivery]) = delivery.result.cursor := by
    simp [nextCursor]
  have first := (all.left.bytes within).2
  rw [upTo, List.drop_zero, Nat.sub_zero] at first
  rw [List.map_append, List.flatten_append, first] at whole
  refine ⟨first, ?_⟩
  nth_rewrite 2 [← List.take_append_drop delivery.result.cursor history] at whole
  exact List.append_cancel_left whole

/-- No cut between the reads splits a character exactly where no cursor does. -/
theorem AllDelivered.splits_iff {delivered : List Delivery} (within : history.length ≤ cap)
    (all : AllDelivered cap history 0 delivered)
    (whole : (delivered.map Delivery.bytes).flatten = history) :
    (∀ before after, delivered.map Delivery.bytes = before ++ after →
        Utf8.splits before.flatten after.flatten = false) ↔
      ∀ delivery ∈ delivered, Utf8.splits (history.take delivery.result.cursor)
        (history.drop delivery.result.cursor) = false := by
  constructor
  · intro joined delivery isDelivery
    obtain ⟨former, others, rfl⟩ := List.append_of_mem isDelivery
    rw [List.append_cons] at all whole joined
    have cut := all.cut within whole
    rw [← cut.1, ← cut.2]
    exact joined _ _ List.map_append
  · intro joined before after isCut
    obtain ⟨former, _, rfl, rfl, rfl⟩ := List.map_eq_append_iff.mp isCut
    cases former using List.reverseRecOn with
    | nil => rfl
    | append_singleton _ delivery =>
        have cut := all.cut within whole
        rw [cut.1, cut.2]
        exact joined delivery (by simp)

/-- The texts of the reads up to the end are the text of the whole output exactly where no cursor that
a read answered lies within a character. -/
theorem reads_give_the_text_iff_no_character_is_split (isInitial : hostSystem.initial start)
    (run : hostSystem.Run start trace host) (sequential : Sequential reader trace)
    (within : (appended trace).length ≤ host.cap) {delivered : List Delivery} {last : Delivery}
    (reads : deliveries reader trace = delivered ++ [last]) (eof : last.result.eof = true) :
    (String.join ((deliveries reader trace).map fun delivery => delivery.result.chunk) =
        String.ofList (Utf8.decodeLossy (appended trace)) ↔
      ∀ delivery ∈ deliveries reader trace, Utf8.splits ((appended trace).take delivery.result.cursor)
          ((appended trace).drop delivery.result.cursor) = false) ∧
      ∀ text : String, appended trace = text.toList.flatMap String.utf8EncodeChar →
        String.ofList (Utf8.decodeLossy (appended trace)) = text := by
  have all := ((output_run isInitial run).2 reader sequential).all
  rw [reads] at all ⊢
  obtain ⟨_, isLast⟩ := all.last
  have bytes : ((delivered ++ [last]).map Delivery.bytes).flatten = appended trace := by
    have upTo : nextCursor 0 (delivered ++ [last]) = (appended trace).length := by
      rw [← isLast.ending eof]
      simp [nextCursor]
    rw [(all.bytes within).2, upTo, List.drop_zero, Nat.sub_zero, List.take_length]
  have chars : (String.join ((delivered ++ [last]).map fun delivery =>
      delivery.result.chunk)).toList =
        ((delivered ++ [last]).map Delivery.bytes).flatMap Utf8.decodeLossy := by
    rw [String.toList_join, List.flatMap_map, List.flatMap_map, List.flatMap_def,
      List.flatMap_def, all.text]
  refine ⟨?_, fun text same => ?_⟩
  · rw [← all.splits_iff within bytes, ← Utf8.flatMap_decodeLossy_iff, ← chars, bytes,
      ← String.toList_inj, String.toList_ofList]
  · rw [same, Utf8.decodeLossy_encode, String.ofList_toList]

/-- A process whose output outgrows its cap of four bytes before its reader comes back. -/
theorem trimmed_output_is_read_in_order :
    ∃ start trace host, hostSystem.initial start ∧ hostSystem.Run start trace host ∧
      Sequential 0 trace ∧ appended trace = [97, 98, 99, 100, 101, 102, 103] ∧
      (deliveries 0 trace).map (fun delivery => (delivery.bytes, delivery.result.retainedFrom)) =
        [([97, 98], 0), ([100, 101, 102, 103], 3)] ∧
      host.output.bytes = [100, 101, 102, 103] ∧
      AllDelivered 4 (appended trace) 0 (deliveries 0 trace) := by
  let start : HostProcess := .spawned "p" .pipe 4
  obtain ⟨trace, host, run, sequential, isOutput, got, cap⟩ := start.exists_run
    [.appends .stdout [97, 98], .reads 0 0, .appends .stderr [99, 100, 101],
      .appends .stdout [102, 103], .pumpEnds .stdout, .pumpEnds .stderr, .exits (.code 0),
      .waiter, .waiter, .waiter, .reads 0 2]
    (fun trace host => Sequential 0 trace ∧ appended trace = [97, 98, 99, 100, 101, 102, 103] ∧
      (deliveries 0 trace).map (fun delivery => (delivery.bytes, delivery.result.retainedFrom)) =
        [([97, 98], 0), ([100, 101, 102, 103], 3)] ∧ host.cap = 4) (by decide +kernel)
  have isInitial : hostSystem.initial start := ⟨"p", .pipe, 4, rfl⟩
  obtain ⟨_, _, total, bytes, reads⟩ := output_is_kept_and_read_in_order isInitial run
  have read := (reads 0 sequential).1
  rw [total, cap, isOutput] at bytes
  rw [cap] at read
  exact ⟨start, trace, host, isInitial, run, sequential, isOutput, got, bytes, read⟩

/-- A read that ends after a character and the beginning of one that does not go on. -/
theorem begun_character_is_read :
    ∃ start trace host, hostSystem.initial start ∧ hostSystem.Run start trace host ∧
      Sequential 0 trace ∧ (deliveries 0 trace).length = 2 ∧
      String.join ((deliveries 0 trace).map fun delivery => delivery.result.chunk) = "é\uFFFDA" := by
  let start : HostProcess := .spawned "p" .pipe 64
  obtain ⟨trace, host, run, sequential, isOutput, got, cap⟩ := start.exists_run
    [.appends .stdout [0xC3], .appends .stdout [0xA9, 0xC3], .reads 0 0, .appends .stdout [0x41],
      .pumpEnds .stdout, .pumpEnds .stderr, .exits (.code 0), .waiter, .waiter, .waiter, .reads 0 3]
    (fun trace host => Sequential 0 trace ∧ appended trace = [0xC3, 0xA9, 0xC3, 0x41] ∧
      (deliveries 0 trace).map (fun delivery => (delivery.result.cursor, delivery.result.eof)) =
        [(3, false), (4, true)] ∧ host.cap = 64) (by decide +kernel)
  have isInitial : hostSystem.initial start := ⟨"p", .pipe, 64, rfl⟩
  obtain ⟨first, last, both⟩ : ∃ first last, deliveries 0 trace = [first, last] := by
    have two := congrArg List.length got
    rw [List.length_map] at two
    exact List.length_eq_two.mp two
  rw [both, List.map_cons, List.map_cons, List.map_nil] at got
  simp only [List.cons.injEq, Prod.mk.injEq] at got
  obtain ⟨⟨firstCursor, _⟩, ⟨lastCursor, eof⟩, _⟩ := got
  have text := (reads_give_the_text_iff_no_character_is_split isInitial run sequential
    (by rw [isOutput, cap]; decide) (both.trans (List.append_cons [first] last []).symm) eof).1
  refine ⟨start, trace, host, isInitial, run, sequential, by rw [both]; rfl, ?_⟩
  rw [text.mpr, isOutput]
  · decide +kernel
  · rw [both, isOutput, List.forall_mem_cons, List.forall_mem_singleton, firstCursor, lastCursor]
    decide +kernel

/-- The two bytes of one character, read between them, become two replacements. -/
theorem split_character_is_lost :
    ∃ start trace host, hostSystem.initial start ∧ hostSystem.Run start trace host ∧
      Sequential 0 trace ∧ (appended trace).length ≤ host.cap ∧
      appended trace = "é".toList.flatMap String.utf8EncodeChar ∧
      ((deliveries 0 trace).getLast?.map fun delivery => delivery.result.eof) = some true ∧
      String.join ((deliveries 0 trace).map fun delivery => delivery.result.chunk) ≠ "é" := by
  let start : HostProcess := .spawned "p" .pipe 64
  obtain ⟨trace, host, run, sequential, within, isOutput, ends, got⟩ := start.exists_run
    [.appends .stdout [0xC3], .reads 0 0, .appends .stdout [0xA9], .pumpEnds .stdout,
      .pumpEnds .stderr, .exits (.code 0), .waiter, .waiter, .waiter, .reads 0 1]
    (fun trace host => Sequential 0 trace ∧ (appended trace).length ≤ host.cap ∧
      appended trace = "é".toList.flatMap String.utf8EncodeChar ∧
      ((deliveries 0 trace).getLast?.map fun delivery => delivery.result.eof) = some true ∧
      (deliveries 0 trace).map (fun delivery => delivery.result.chunk) = ["\uFFFD", "\uFFFD"])
    (by decide +kernel)
  refine ⟨start, trace, host, ⟨"p", .pipe, 64, rfl⟩, run, sequential, within, isOutput, ends, ?_⟩
  rw [got]
  decide +kernel

end CodeSpace.Runner
