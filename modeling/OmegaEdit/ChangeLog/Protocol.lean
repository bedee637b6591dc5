import OmegaEdit.ChangeLog.Consumer

/-! The export protocol as a grammar of frame sequences, and the proof that the
consumer accepts exactly these sequences under every schedule. -/
namespace OmegaEdit.ChangeLog
variable {progress result : Progress} {frame : Frame} {index bytes declared received : Nat}
  {frames : List Frame} {run : Run}

/-- A chunk of the entry's payload at this offset, no larger than the limit if there is one. -/
structure PayloadChunk.At (limit : Option Nat) (index received : Nat) (chunk : PayloadChunk) :
    Prop where
  entryIndex : Denotes chunk.entryIndexDecimal index
  chunkOffset : Denotes chunk.chunkOffsetDecimal received
  nonempty : 0 < chunk.data.length
  bounded : ∀ bound ∈ limit, chunk.data.length ≤ bound

/-- Contiguous chunks from an offset to the declared length, the last one marked. -/
inductive Chunks (limit : Option Nat) (index declared : Nat) : Nat → List PayloadChunk → Prop where
  | last {received : Nat} {chunk : PayloadChunk} (here : chunk.At limit index received)
      (marked : chunk.finalChunk = true) (reached : received + chunk.data.length = declared) :
      Chunks limit index declared received [chunk]
  | more {received : Nat} {chunk : PayloadChunk} {rest : List PayloadChunk}
      (here : chunk.At limit index received) (unmarked : chunk.finalChunk = false)
      (below : received + chunk.data.length < declared)
      (others : Chunks limit index declared (received + chunk.data.length) rest) :
      Chunks limit index declared received (chunk :: rest)

/-- The entries from an index on, with the payload bytes before them, and the completion. -/
inductive Entries (limit : Option Nat) : Nat → Nat → List Frame → Prop where
  | complete {index bytes : Nat} {complete : StreamComplete}
      (emitted : Denotes complete.emittedChangeCountDecimal index)
      (payloadBytes : Denotes complete.payloadByteCountDecimal bytes) :
      Entries limit index bytes [.complete complete]
  | bare {index bytes : Nat} {entry : EntryHeader} {rest : List Frame}
      (valid : entry.Valid index 0) (others : Entries limit (index + 1) bytes rest) :
      Entries limit index bytes (.entry entry :: rest)
  | carrying {index bytes declared : Nat} {entry : EntryHeader} {chunks : List PayloadChunk}
      {rest : List Frame} (valid : entry.Valid index declared) (positive : 0 < declared)
      (payload : Chunks limit index declared 0 chunks)
      (others : Entries limit (index + 1) (bytes + declared) rest) :
      Entries limit index bytes (.entry entry :: (chunks.map .payload ++ rest))

/-- The export protocol: a header, the entries with their payloads, a completion. -/
def Protocol (limit : Option Nat) (frames : List Frame) : Prop :=
  ∃ header rest, frames = .header header :: rest ∧ header.Valid ∧ Entries limit 0 0 rest

namespace Progress

def reading (index bytes : Nat) : Progress := ⟨true, false, index, none, bytes⟩

def inPayload (index declared received bytes : Nat) : Progress :=
  ⟨true, false, index, some ⟨index, declared, received⟩, bytes⟩

def completed (index bytes : Nat) : Progress := ⟨true, true, index, none, bytes⟩

/-- A whole turn of the loop. -/
def next (progress : Progress) (frame : Frame) : Option Progress :=
  match progress.check frame with
  | .ok (noted, deferred) => some (noted.resume deferred)
  | .error _ => none

lemma next_eq_some :
    progress.next frame = some result ↔
      ∃ noted deferred, progress.check frame = .ok (noted, deferred) ∧
        result = noted.resume deferred := by
  unfold next
  cases progress.check frame with
  | error error => simp
  | ok checked =>
    obtain ⟨noted, deferred⟩ := checked
    constructor
    · intro same
      exact ⟨noted, deferred, rfl, (Option.some.inj same).symm⟩
    · rintro ⟨other, otherDeferred, same, rfl⟩
      obtain ⟨rfl, rfl⟩ := Prod.mk.inj (Except.ok.inj same)
      rfl

lemma next_initial :
    next {} frame = some result ↔
      ∃ header, frame = .header header ∧ header.Valid ∧ result = reading 0 0 := by
  rw [next_eq_some]
  cases frame with
  | header header =>
    simp only [check, Bool.false_eq_true, if_false, ne_eq, not_true_eq_false, Option.isSome_none,
      or_self, Transition.bind_eq_ok]
    constructor
    · rintro ⟨noted, deferred, ⟨⟨⟩, valid, same⟩, rfl⟩
      obtain ⟨rfl, rfl⟩ := Prod.mk.inj (Except.ok.inj same)
      exact ⟨header, rfl, validateHeader_eq_ok.mp valid, rfl⟩
    · rintro ⟨_, same, valid, rfl⟩
      obtain rfl := Frame.header.inj same
      exact ⟨_, _, ⟨⟨⟩, validateHeader_eq_ok.mpr valid, rfl⟩, rfl⟩
  | _ => simp [check]

/-- A completion passes when its counts are those of the stream. -/
lemma checkComplete_eq_ok {complete : StreamComplete} {result : Progress × Deferred} :
    progress.checkComplete complete = .ok result ↔
      Denotes complete.emittedChangeCountDecimal progress.expectedEntry ∧
        Denotes complete.payloadByteCountDecimal progress.payloadBytes ∧
        ({ progress with sawComplete := true }, .nothing) = result := by
  simp only [checkComplete, Transition.bind_eq_ok, parseDecimal_eq_ok, guard_eq_ok, not_not,
    Except.ok.injEq, ne_eq]
  constructor
  · rintro ⟨_, emitted, rfl, _, payloadBytes, rfl, same⟩
    exact ⟨emitted, payloadBytes, same⟩
  · rintro ⟨emitted, payloadBytes, same⟩
    exact ⟨_, emitted, rfl, _, payloadBytes, rfl, same⟩

/-- Between two entries comes the next one or the completion. -/
lemma next_reading :
    (reading index bytes).next frame = some result ↔
      (∃ entry, frame = .entry entry ∧ entry.Valid index 0 ∧ result = reading (index + 1) bytes) ∨
      (∃ entry declared, frame = .entry entry ∧ entry.Valid index declared ∧ 0 < declared ∧
        result = inPayload index declared 0 bytes) ∨ (∃ complete, frame = .complete complete ∧
        Denotes complete.emittedChangeCountDecimal index ∧
        Denotes complete.payloadByteCountDecimal bytes ∧ result = completed index bytes) := by
  rw [next_eq_some]
  cases frame with
  | header header => simp [check, reading]
  | entry entry =>
    simp only [check, reading, Bool.false_eq_true, if_false, Bool.true_eq_false, Option.isSome_none,
      or_self, Transition.bind_eq_ok, validateEntry_eq_ok]
    constructor
    · rintro ⟨noted, deferred, ⟨declared, valid, same⟩, rfl⟩
      obtain ⟨rfl, rfl⟩ := Prod.mk.inj (Except.ok.inj same)
      by_cases none : declared = 0
      · subst none
        exact .inl ⟨entry, rfl, valid, rfl⟩
      · refine .inr (.inl ⟨entry, declared, rfl, valid, Nat.pos_of_ne_zero none, ?_⟩)
        simp [resume, none, inPayload]
    · rintro (⟨_, same, valid, rfl⟩ | ⟨_, declared, same, valid, positive, rfl⟩ | ⟨_, same, -⟩)
      · obtain rfl := Frame.entry.inj same
        exact ⟨_, _, ⟨0, valid, rfl⟩, rfl⟩
      · obtain rfl := Frame.entry.inj same
        refine ⟨_, _, ⟨declared, valid, rfl⟩, ?_⟩
        simp [resume, Nat.ne_of_gt positive, inPayload]
      · cases same
  | payload payload => simp [check, reading]
  | complete complete =>
    simp only [check, reading, Bool.false_eq_true, if_false, Bool.true_eq_false,
      Option.isSome_none, or_self, checkComplete_eq_ok]
    constructor
    · rintro ⟨noted, deferred, ⟨emitted, payloadBytes, same⟩, rfl⟩
      obtain ⟨rfl, rfl⟩ := Prod.mk.inj same
      exact .inr (.inr ⟨complete, rfl, emitted, payloadBytes, rfl⟩)
    · rintro (⟨_, same, -⟩ | ⟨_, _, same, -⟩ | ⟨_, same, emitted, payloadBytes, rfl⟩)
      · cases same
      · cases same
      · obtain rfl := Frame.complete.inj same
        exact ⟨_, _, ⟨emitted, payloadBytes, rfl⟩, rfl⟩
  | empty => simp [check, reading]

lemma next_inPayload :
    (inPayload index declared received bytes).next frame = some result ↔
      ∃ chunk, frame = .payload chunk ∧ chunk.At (some maxPayloadChunk) index received ∧
        (chunk.finalChunk = true ∧ received + chunk.data.length = declared ∧
            result = reading (index + 1) (bytes + chunk.data.length) ∨
          chunk.finalChunk = false ∧ received + chunk.data.length < declared ∧
            result = inPayload index declared (received + chunk.data.length)
              (bytes + chunk.data.length)) := by
  rw [next_eq_some]
  cases frame with
  | header header | entry entry => simp [check, inPayload]
  | payload chunk =>
    simp only [check, inPayload, checkPayload, Bool.false_eq_true, if_false, Bool.true_eq_false,
      Transition.bind_eq_ok, parseDecimal_eq_ok, guard_eq_ok, not_not, not_or, not_lt, gt_iff_lt,
      ne_eq]
    constructor
    · rintro ⟨noted, deferred, ⟨_, entryIndex, _, chunkOffset, ⟨sameIndex, sameOffset, nonempty,
        bounded⟩, fits, marker, same⟩, rfl⟩
      obtain ⟨rfl, rfl⟩ := Prod.mk.inj (Except.ok.inj same)
      obtain rfl := sameIndex.symm
      obtain rfl := sameOffset.symm
      refine ⟨chunk, rfl, ⟨entryIndex, chunkOffset, Nat.pos_of_ne_zero nonempty, ?_⟩, ?_⟩
      · simpa using bounded
      · by_cases atEnd : received + chunk.data.length = declared
        · exact .inl ⟨by simpa [atEnd] using marker, atEnd, by simp [resume, atEnd, reading]⟩
        · exact .inr ⟨by simpa [atEnd] using marker, by omega, by simp [resume, atEnd]⟩
    · rintro ⟨_, same, here, ends⟩
      obtain rfl := Frame.payload.inj same
      have bounded : chunk.data.length ≤ maxPayloadChunk := here.bounded _ rfl
      have nonempty := here.nonempty
      rcases ends with ⟨marked, atEnd, rfl⟩ | ⟨unmarked, below, rfl⟩
      · refine ⟨_, _, ⟨_, here.entryIndex, _, here.chunkOffset, ⟨rfl, rfl, by omega, bounded⟩,
          by omega, by simp [marked, atEnd], rfl⟩, ?_⟩
        simp [resume, atEnd, reading]
      · refine ⟨_, _, ⟨_, here.entryIndex, _, here.chunkOffset, ⟨rfl, rfl, by omega, bounded⟩,
          by omega, by simp [unmarked, ne_of_lt below], rfl⟩, ?_⟩
        simp [resume, ne_of_lt below]
  | complete complete | empty => simp [check, inPayload]

lemma next_over : (completed index bytes).next frame = none := by
  simp [next, check, completed]

def Complete (progress : Progress) : Prop :=
  progress.sawHeader = true ∧ progress.sawComplete = true

end Progress

/-- The protocol check over a whole sequence of frames. -/
def replayFrom (progress : Progress) (frames : List Frame) : Option Progress :=
  frames.foldlM Progress.next progress

def replay (frames : List Frame) : Option Progress := replayFrom {} frames

lemma replayFrom_cons :
    replayFrom progress (frame :: frames) = some result ↔
      ∃ middle, progress.next frame = some middle ∧ replayFrom middle frames = some result := by
  simp [replayFrom, Option.bind_eq_some_iff]

lemma replayFrom_append {left right : List Frame} :
    replayFrom progress (left ++ right) = some result ↔
      ∃ middle, replayFrom progress left = some middle ∧ replayFrom middle right = some result := by
  simp [replayFrom, List.foldlM_append, Option.bind_eq_some_iff]

section Grammar
open Progress

lemma replayFrom_over (accepted : replayFrom (completed index bytes) frames = some result) :
    frames = [] := by
  cases frames with
  | nil => rfl
  | cons frame frames =>
    obtain ⟨middle, taken, -⟩ := replayFrom_cons.mp accepted
    rw [next_over] at taken
    cases taken

lemma Chunks.replayFrom {chunks : List PayloadChunk}
    (chunked : Chunks (some maxPayloadChunk) index declared received chunks) :
    replayFrom (inPayload index declared received bytes) (chunks.map .payload) =
      some (reading (index + 1) (bytes + (declared - received))) := by
  induction chunked generalizing bytes with
  | @last received chunk here marked reached =>
    refine replayFrom_cons.mpr ⟨_, next_inPayload.mpr ⟨_, rfl, here, .inl ⟨marked, reached, rfl⟩⟩, ?_⟩
    have total : declared - received = chunk.data.length := by omega
    rw [total]
    rfl
  | more here unmarked below others ih =>
    refine replayFrom_cons.mpr ⟨_, next_inPayload.mpr ⟨_, rfl, here, .inr ⟨unmarked, below, rfl⟩⟩, ?_⟩
    rw [ih]
    congr 2
    omega

lemma Entries.replayFrom (entries : Entries (some maxPayloadChunk) index bytes frames) :
    ∃ result, replayFrom (reading index bytes) frames = some result ∧ result.Complete := by
  induction entries with
  | complete emitted payloadBytes =>
    exact ⟨_, replayFrom_cons.mpr ⟨_, next_reading.mpr (.inr (.inr ⟨_, rfl, emitted, payloadBytes, rfl⟩)),
      rfl⟩, rfl, rfl⟩
  | bare valid others ih =>
    obtain ⟨result, rest, complete⟩ := ih
    exact ⟨result, replayFrom_cons.mpr ⟨_, next_reading.mpr (.inl ⟨_, rfl, valid, rfl⟩), rest⟩, complete⟩
  | carrying valid positive payload others ih =>
    obtain ⟨result, rest, complete⟩ := ih
    refine ⟨result, replayFrom_cons.mpr ⟨_, next_reading.mpr (.inr (.inl ⟨_, _, rfl, valid, positive, rfl⟩)),
      replayFrom_append.mpr ⟨_, payload.replayFrom, rest⟩⟩, complete⟩

/-- What a state of the check still requires of the frames to come. -/
def Requires (frames : List Frame) (progress : Progress) : Prop :=
  (∀ index bytes, progress = reading index bytes → Entries (some maxPayloadChunk) index bytes frames) ∧
    ∀ index declared received bytes, progress = inPayload index declared received bytes →
      received < declared → ∃ chunks rest, frames = chunks.map .payload ++ rest ∧
        Chunks (some maxPayloadChunk) index declared received chunks ∧
        Entries (some maxPayloadChunk) (index + 1) (bytes + (declared - received)) rest

lemma requires_of_replayFrom (accepted : replayFrom progress frames = some result)
    (complete : result.Complete) :
    Requires frames progress := by
  -- The state decides which production of the grammar the next frame belongs to.
  induction frames generalizing progress with
  | nil =>
    obtain rfl := Option.some.inj accepted
    constructor
    · rintro index bytes rfl
      exact absurd complete.2 (by simp [reading])
    · rintro index declared received bytes rfl
      exact absurd complete.2 (by simp [inPayload])
  | cons frame frames ih =>
    obtain ⟨middle, taken, rest⟩ := replayFrom_cons.mp accepted
    have later := ih rest
    constructor
    · rintro index bytes rfl
      rcases next_reading.mp taken with ⟨entry, rfl, valid, rfl⟩ |
        ⟨entry, declared, rfl, valid, positive, rfl⟩ | ⟨ending, rfl, emitted, payloadBytes, rfl⟩
      · exact .bare valid (later.1 _ _ rfl)
      · obtain ⟨chunks, others, rfl, payload, entries⟩ := later.2 _ _ _ _ rfl positive
        exact .carrying valid positive payload entries
      · obtain rfl := replayFrom_over rest
        exact .complete emitted payloadBytes
    · rintro index declared received bytes rfl below
      obtain ⟨chunk, rfl, here, ends⟩ := next_inPayload.mp taken
      rcases ends with ⟨marked, atEnd, rfl⟩ | ⟨unmarked, stillBelow, rfl⟩
      · refine ⟨[chunk], frames, rfl, .last here marked atEnd, ?_⟩
        have total : bytes + (declared - received) = bytes + chunk.data.length := by omega
        rw [total]
        exact later.1 _ _ rfl
      · obtain ⟨chunks, others, rfl, payload, entries⟩ := later.2 _ _ _ _ rfl stillBelow
        refine ⟨chunk :: chunks, others, rfl, .more here unmarked stillBelow payload, ?_⟩
        have total : bytes + (declared - received) =
            bytes + chunk.data.length + (declared - (received + chunk.data.length)) := by omega
        rw [total]
        exact entries

/-- The protocol check runs to a complete state on the sequences of the protocol alone. -/
lemma replay_complete_iff :
    (∃ result, replay frames = some result ∧ result.Complete) ↔
      Protocol (some maxPayloadChunk) frames := by
  constructor
  · rintro ⟨result, accepted, complete⟩
    cases frames with
    | nil =>
      obtain rfl := Option.some.inj accepted
      exact absurd complete.1 (by simp)
    | cons frame frames =>
      obtain ⟨middle, taken, rest⟩ := replayFrom_cons.mp accepted
      obtain ⟨header, rfl, valid, rfl⟩ := next_initial.mp taken
      exact ⟨header, frames, rfl, valid, (requires_of_replayFrom rest complete).1 _ _ rfl⟩
  · rintro ⟨header, rest, rfl, valid, entries⟩
    obtain ⟨result, accepted, complete⟩ := entries.replayFrom
    exact ⟨result, replayFrom_cons.mpr ⟨_, next_initial.mpr ⟨header, rfl, valid, rfl⟩, accepted⟩,
      complete⟩

/-- A sequence that has been refused cannot be continued to one of the protocol. -/
lemma not_protocol_of_prefix {taken : List Frame} (start : taken <+: frames)
    (refused : replay taken = none) : ¬ Protocol (some maxPayloadChunk) frames := by
  intro protocol
  obtain ⟨result, accepted, -⟩ := replay_complete_iff.mpr protocol
  obtain ⟨more, rfl⟩ := start
  obtain ⟨middle, first, -⟩ := replayFrom_append.mp accepted
  rw [replay] at refused
  rw [refused] at first
  cases first

end Grammar

namespace Run

/-- How the generator can come to throw. -/
def Refused (run : Run) : Prop :=
  run.errored = true ∨ (∃ taken, taken <+: run.received ∧ replay taken = none) ∨
    (run.closed = true ∧ ∃ progress, replay run.received = some progress ∧ ¬ progress.Complete)

/-- The queue holds what has been received and not yielded, and the check stands at what has. -/
structure Ready (run : Run) (progress : Progress) : Prop where
  received : run.received = run.yielded ++ run.consumer.queue
  replayed : replay run.yielded = some progress

/-- What is known at each place of the generator. -/
def Here (run : Run) : Prop :=
  match run.consumer.location with
  | .suspended deferred => run.Ready (run.consumer.progress.resume deferred)
  | .waiting => run.Ready run.consumer.progress ∧ run.consumer.queue = [] ∧ run.consumer.ended = false
  | .woken => run.Ready run.consumer.progress
  | .finished => run.received = run.yielded ∧ run.errored = false ∧ run.closed = true ∧
      ∃ progress, replay run.received = some progress ∧ progress.Complete
  | .failed _ => run.yielded <+: run.received ∧ run.Refused

structure Sound (run : Run) : Prop where
  errored : run.consumer.streamError.isSome = run.errored
  ended : run.consumer.ended = (run.errored || run.closed)
  paused : run.consumer.paused = true → resumeFrameQueue < run.consumer.queue.length
  here : run.Here

/-- The generator stands at the head of its loop. -/
structure AtHead (run : Run) : Prop where
  errored : run.consumer.streamError.isSome = run.errored
  ended : run.consumer.ended = (run.errored || run.closed)
  paused : run.consumer.paused = true → resumeFrameQueue < run.consumer.queue.length
  ready : run.Ready run.consumer.progress

lemma sound_initial : Sound {} where
  errored := rfl
  ended := rfl
  paused := by simp
  here := ⟨rfl, rfl⟩

lemma replay_snoc (replayed : replay frames = some progress) :
    replay (frames ++ [frame]) = progress.next frame := by
  rw [replay, replayFrom] at replayed ⊢
  simp [List.foldlM_append, replayed]

lemma AtHead.conclude (atHead : run.AtHead) (empty : run.consumer.queue = [])
    (ended : run.consumer.ended = true) :
    (run.ran ({ run.consumer with location := run.consumer.conclude }, none)).Here := by
  have received : run.received = run.yielded := by simpa [empty] using atHead.ready.received
  have isOver := atHead.ended
  rw [ended] at isOver
  unfold Consumer.conclude
  cases failure : run.consumer.streamError with
  | some message =>
    have errored : run.errored = true := by rw [← atHead.errored, failure]; rfl
    exact ⟨by simp [ran, received], .inl errored⟩
  | none =>
    have fine : run.errored = false := by rw [← atHead.errored, failure]; rfl
    have closed : run.closed = true := by simpa [fine] using isOver.symm
    have replayed : replay run.received = some run.consumer.progress := by
      rw [received, atHead.ready.replayed]
    by_cases partway : run.consumer.progress.sawHeader = false ∨ run.consumer.progress.sawComplete = false
    · simp only [partway, if_true]
      refine ⟨by simp [ran, received], .inr (.inr ⟨closed, _, replayed, ?_⟩)⟩
      rintro ⟨header, complete⟩
      simp [header, complete] at partway
    · simp only [partway, if_false]
      simp only [not_or, Bool.not_eq_false] at partway
      exact ⟨by simp [ran, received], fine, closed, _, replayed, partway⟩

/-- The generator leaves the head of its loop in a sound state. -/
lemma AtHead.advance (atHead : run.AtHead) : (run.ran run.consumer.advance).Sound := by
  unfold Consumer.advance
  split
  · rename_i empty
    split
    · rename_i ended
      exact ⟨atHead.errored, atHead.ended, atHead.paused, atHead.conclude empty ended⟩
    · rename_i unclosed
      refine ⟨atHead.errored, atHead.ended, atHead.paused, ⟨?_, ?_⟩, empty,
        by simpa [ran] using unclosed⟩
      · simpa [ran] using atHead.ready.received
      · simpa [ran] using atHead.ready.replayed
  · rename_i frame rest queued
    have received : run.received = run.yielded ++ [frame] ++ rest := by
      simpa [queued] using atHead.ready.received
    have paused : (run.consumer.paused && !decide (rest.length ≤ resumeFrameQueue)) = true →
        resumeFrameQueue < rest.length := by
      simp
    have turned : replay (run.yielded ++ [frame]) = run.consumer.progress.next frame :=
      replay_snoc atHead.ready.replayed
    split
    · rename_i error refused
      have stuck : replay (run.yielded ++ [frame]) = none := by
        rw [turned, Progress.next, refused]
      refine ⟨atHead.errored, atHead.ended, paused, ⟨?_, ?_⟩, .inr (.inl ⟨_, ⟨rest, received.symm⟩, stuck⟩)⟩
      · exact [frame] ++ rest
      · simp [ran, received]
    · rename_i progress deferred accepted
      refine ⟨atHead.errored, atHead.ended, paused, ⟨?_, ?_⟩⟩
      · simpa [ran] using received
      · simp only [ran, Option.toList_some]
        rw [turned, Progress.next, accepted]

lemma Sound.pull (sound : run.Sound) : (run.step .pull).Sound := by
  have here := sound.here
  unfold Here at here
  simp only [step, Consumer.pull]
  split
  · rename_i deferred location
    rw [location] at here
    have atHead : AtHead { run with
        consumer := { run.consumer with progress := run.consumer.progress.resume deferred } } :=
      ⟨sound.errored, sound.ended, sound.paused, here.received, here.replayed⟩
    exact atHead.advance
  · simpa [ran] using sound

lemma Sound.tick (sound : run.Sound) : (run.step .tick).Sound := by
  have here := sound.here
  unfold Here at here
  simp only [step, Consumer.tick]
  split
  · rename_i location
    rw [location] at here
    exact AtHead.advance ⟨sound.errored, sound.ended, sound.paused, here⟩
  · simpa [ran] using sound

lemma Ready.data (ready : run.Ready progress) (frame : Frame) :
    Ready { run with consumer := run.consumer.onData frame, received := run.received ++ [frame] }
      progress where
  received := by
    simp only [Consumer.onData, Consumer.notify]
    rw [ready.received, List.append_assoc]
  replayed := ready.replayed

section Sound
variable (sound : run.Sound)
include sound

lemma Sound.onData_paused (frame : Frame) :
    (run.consumer.onData frame).paused = true →
      resumeFrameQueue < (run.consumer.onData frame).queue.length := by
  simp only [Consumer.onData, Consumer.notify, Bool.or_eq_true, decide_eq_true_eq,
    List.length_append, List.length_singleton]
  rintro (paused | full)
  · exact Nat.lt_succ_of_lt (sound.paused paused)
  · simp only [maxFrameQueue] at full
    simp only [resumeFrameQueue]
    omega

lemma Sound.data (frame : Frame) : (run.step (.data frame)).Sound := by
  by_cases closed : run.closed = true
  · simpa [step, closed] using sound
  rw [step, if_neg closed]
  refine ⟨sound.errored, sound.ended, sound.onData_paused frame, ?_⟩
  have here := sound.here
  unfold Here at here ⊢
  simp only [Consumer.onData, Consumer.notify]
  cases location : run.consumer.location with
  | suspended deferred | woken =>
    rw [location] at here
    exact ⟨(here.data frame).received, here.replayed⟩
  | waiting =>
    rw [location] at here
    exact ⟨(here.1.data frame).received, here.1.replayed⟩
  | finished =>
    rw [location] at here
    exact absurd here.2.2.1 closed
  | failed error =>
    rw [location] at here
    obtain ⟨start, refused⟩ := here
    refine ⟨start.trans (List.prefix_append _ _), ?_⟩
    rcases refused with errored | ⟨taken, early, stuck⟩ | ⟨isClosed, -⟩
    · exact .inl errored
    · exact .inr (.inl ⟨taken, early.trans (List.prefix_append _ _), stuck⟩)
    · exact absurd isClosed closed

lemma Sound.error (message : String) : (run.step (.error message)).Sound := by
  by_cases closed : run.closed = true
  · simpa [step, closed] using sound
  rw [step, if_neg closed]
  refine ⟨rfl, rfl, sound.paused, ?_⟩
  have here := sound.here
  unfold Here at here ⊢
  simp only [Consumer.onError, Consumer.notify]
  cases location : run.consumer.location with
  | suspended deferred | woken =>
    rw [location] at here
    exact ⟨here.received, here.replayed⟩
  | waiting =>
    rw [location] at here
    exact ⟨here.1.received, here.1.replayed⟩
  | finished =>
    rw [location] at here
    exact absurd here.2.2.1 closed
  | failed error =>
    rw [location] at here
    exact ⟨here.1, .inl rfl⟩

lemma Sound.close : (run.step .close).Sound := by
  have ended : true = (run.errored || true) := by simp
  refine ⟨sound.errored, ended, sound.paused, ?_⟩
  have here := sound.here
  unfold Here at here ⊢
  simp only [step, Consumer.onEnd, Consumer.notify]
  cases location : run.consumer.location with
  | suspended deferred | woken =>
    rw [location] at here
    exact ⟨here.received, here.replayed⟩
  | waiting =>
    rw [location] at here
    exact ⟨here.1.received, here.1.replayed⟩
  | finished =>
    rw [location] at here
    exact ⟨here.1, here.2.1, trivial, here.2.2.2⟩
  | failed error =>
    rw [location] at here
    obtain ⟨start, refused⟩ := here
    refine ⟨start, ?_⟩
    rcases refused with errored | early | ⟨-, partway⟩
    · exact .inl errored
    · exact .inr (.inl early)
    · exact .inr (.inr ⟨rfl, partway⟩)

lemma Sound.step (event : Event) : (run.step event).Sound := by
  cases event with
  | data frame => exact sound.data frame
  | error message => exact sound.error message
  | close => exact sound.close
  | pull => exact sound.pull
  | tick => exact sound.tick

lemma Sound.foldl (schedule : List Event) : (schedule.foldl Run.step run).Sound := by
  induction schedule generalizing run with
  | nil => exact sound
  | cons event schedule ih => exact ih (sound.step event)

/-- No frame is lost, repeated or reordered. -/
lemma Sound.yielded_prefix : run.yielded <+: run.received := by
  have here := sound.here
  unfold Here at here
  cases location : run.consumer.location with
  | suspended deferred | woken => rw [location] at here; exact ⟨_, here.received.symm⟩
  | waiting => rw [location] at here; exact ⟨_, here.1.received.symm⟩
  | finished => rw [location] at here; exact ⟨[], by simp [here.1]⟩
  | failed error => rw [location] at here; exact here.1

/-- A consumer that sleeps is owed another event: the stream is open and not paused. -/
lemma Sound.waiting (asleep : run.consumer.location = .waiting) :
    run.consumer.queue = [] ∧ run.consumer.ended = false ∧ run.consumer.paused = false := by
  have here := sound.here
  unfold Here at here
  rw [asleep] at here
  refine ⟨here.2.1, here.2.2, ?_⟩
  by_contra paused
  have := sound.paused (by simpa using paused)
  simp [here.2.1] at this

lemma Sound.finished_all (finished : run.consumer.location = .finished) :
    run.yielded = run.received := by
  have here := sound.here
  unfold Here at here
  rw [finished] at here
  exact here.1.symm

end Sound

lemma Refused.not_protocol (refused : run.Refused) :
    ¬ (run.errored = false ∧ Protocol (some maxPayloadChunk) run.received) := by
  rintro ⟨fine, protocol⟩
  rcases refused with errored | ⟨taken, start, stuck⟩ | ⟨-, progress, replayed, partway⟩
  · simp [fine] at errored
  · exact not_protocol_of_prefix start stuck protocol
  · obtain ⟨other, accepted, complete⟩ := replay_complete_iff.mpr protocol
    rw [replayed] at accepted
    obtain rfl := Option.some.inj accepted
    exact partway complete

/-- Once it is over, it has finished exactly on the sequences of the protocol. -/
lemma Sound.finished_iff (sound : run.Sound) (isOver : run.Over) :
    run.consumer.location = .finished ↔
      run.errored = false ∧ Protocol (some maxPayloadChunk) run.received := by
  have here := sound.here
  unfold Here at here
  rcases isOver with finished | ⟨error, failed⟩
  · rw [finished] at here
    exact ⟨fun _ => ⟨here.2.1, replay_complete_iff.mp here.2.2.2⟩, fun _ => finished⟩
  · rw [failed] at here
    simp only [failed, reduceCtorEq, false_iff]
    exact here.2.not_protocol

lemma advance_frame (consumer : Consumer) :
    consumer.advance.1.ended = consumer.ended ∧
      consumer.advance.1.queue.length ≤ consumer.queue.length := by
  unfold Consumer.advance
  split
  · split
    · exact ⟨rfl, le_rfl⟩
    · exact ⟨rfl, le_rfl⟩
  · rename_i frame rest queued
    have shorter : rest.length ≤ consumer.queue.length := by simp [queued]
    split
    · exact ⟨rfl, shorter⟩
    · exact ⟨rfl, shorter⟩

lemma step_pull_frame (run : Run) :
    (run.step .pull).consumer.ended = run.consumer.ended ∧
      (run.step .pull).consumer.queue.length ≤ run.consumer.queue.length := by
  simp only [step, Consumer.pull]
  split
  · exact advance_frame _
  · exact ⟨rfl, le_rfl⟩

lemma step_tick_ended (run : Run) : (run.step .tick).consumer.ended = run.consumer.ended := by
  simp only [step, Consumer.tick]
  split
  · exact (advance_frame _).1
  · rfl

/-- Once the stream is over, the generator ends or has a frame less before it. -/
lemma advance_shorter (ended : run.consumer.ended = true) :
    (run.ran run.consumer.advance).Over ∨
      (run.ran run.consumer.advance).consumer.queue.length < run.consumer.queue.length := by
  unfold Consumer.advance
  split
  · simp only [ended, if_true]
    left
    unfold Consumer.conclude
    split
    · exact .inr ⟨_, rfl⟩
    · split
      · exact .inr ⟨_, rfl⟩
      · exact .inl rfl
  · rename_i frame rest queued
    split
    · exact .inl (.inr ⟨_, rfl⟩)
    · right
      simp [ran, queued]

lemma Over.stays (isOver : run.Over) : (run.step .pull).Over ∧ (run.step .tick).Over := by
  rcases isOver with finished | ⟨error, failed⟩
  · exact ⟨.inl (by simp [step, Consumer.pull, finished, ran]),
      .inl (by simp [step, Consumer.tick, finished, ran])⟩
  · exact ⟨.inr (by simp [step, Consumer.pull, failed, ran]),
      .inr (by simp [step, Consumer.tick, failed, ran])⟩

def served (run : Run) : Run := (run.step .tick).step .pull

lemma served_shorter (sound : run.Sound) (ended : run.consumer.ended = true) :
    run.served.Over ∨ run.served.consumer.queue.length < run.consumer.queue.length := by
  cases location : run.consumer.location with
  | suspended deferred =>
    have ticked : run.step .tick = run := by simp [step, Consumer.tick, location, ran]
    have pulled : run.step .pull = run.ran (Consumer.advance
        { run.consumer with progress := run.consumer.progress.resume deferred }) := by
      simp [step, Consumer.pull, location]
    rw [served, ticked, pulled]
    have shorter := @advance_shorter { run with
      consumer := { run.consumer with progress := run.consumer.progress.resume deferred } } ended
    exact shorter
  | waiting =>
    have := (sound.waiting location).2.1
    simp [ended] at this
  | woken =>
    have ticked : run.step .tick = run.ran run.consumer.advance := by
      simp [step, Consumer.tick, location]
    rw [served, ticked]
    rcases advance_shorter ended with isOver | shorter
    · exact .inl isOver.stays.1
    · exact .inr (lt_of_le_of_lt (step_pull_frame _).2 shorter)
  | finished => exact .inl (Over.stays (.inl location)).2.stays.1
  | failed error => exact .inl (Over.stays (.inr ⟨error, location⟩)).2.stays.1

/-- After the end of the stream, enough pulls bring the consumer to its end. -/
lemma Sound.drained (sound : run.Sound) (ended : run.consumer.ended = true) :
    ∃ count, let final := (pulling count).foldl Run.step run
      final.Over ∧ final.received = run.received ∧ final.errored = run.errored := by
  induction remaining : run.consumer.queue.length using Nat.strong_induction_on generalizing run with
  | _ length ih =>
    rcases served_shorter sound ended with isOver | shorter
    · exact ⟨1, isOver, rfl, rfl⟩
    · have stillEnded : run.served.consumer.ended = true := by
        rw [served, (step_pull_frame _).1, step_tick_ended, ended]
      obtain ⟨count, isOver, received, errored⟩ :=
        ih _ (remaining ▸ shorter) (sound.tick.pull) stillEnded rfl
      exact ⟨count + 1, isOver, received, errored⟩

end Run

lemma streamChangeLogExport_sound (schedule : List Event) : (streamChangeLogExport schedule).Sound :=
  Run.sound_initial.foldl schedule

lemma streamChangeLogExport_append (schedule more : List Event) :
    streamChangeLogExport (schedule ++ more) = more.foldl Run.step (streamChangeLogExport schedule) :=
  List.foldl_append

lemma foldl_data_received (frames : List Frame) (run : Run) (unclosed : run.closed = false) :
    ((frames.map .data).foldl Run.step run).received = run.received ++ frames := by
  induction frames generalizing run with
  | nil => simp
  | cons frame frames ih =>
    have still : (run.step (.data frame)).closed = false := by simp [Run.step, unclosed]
    have taken : (run.step (.data frame)).received = run.received ++ [frame] := by
      simp [Run.step, unclosed]
    rw [List.map_cons, List.foldl_cons, ih _ still, taken, List.append_assoc, List.singleton_append]

lemma foldl_pulling_received (run : Run) (count : Nat) :
    ((pulling count).foldl Run.step run).received = run.received := by
  induction count generalizing run with
  | zero => rfl
  | succ count ih => exact ih run.served

/-- A stream that delivers these frames and closes has been received as they are. -/
lemma streamChangeLogExport_received (frames : List Frame) (count : Nat) :
    (streamChangeLogExport (frames.map .data ++ [.close] ++ pulling count)).received = frames := by
  rw [streamChangeLogExport_append, foldl_pulling_received, streamChangeLogExport_append]
  exact foldl_data_received frames {} rfl

end OmegaEdit.ChangeLog
