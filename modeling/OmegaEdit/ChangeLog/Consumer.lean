import OmegaEdit.ChangeLog.Frames

/-! The export stream consumer: events of the stream fill a queue, and a generator
that is pulled from the other side takes the frames out, checks them against the
protocol and yields them. What it notes about a frame after the yield happens only
when it is pulled again. -/
namespace OmegaEdit.ChangeLog

/-- The payload an entry still waits for. -/
structure OpenPayload where
  entryIndex : Nat
  declared : Nat
  received : Nat
deriving DecidableEq, Repr

/-- The variables of the generator's protocol check. -/
structure Progress where
  sawHeader : Bool := false
  sawComplete : Bool := false
  expectedEntry : Nat := 0
  currentPayload : Option OpenPayload := none
  payloadBytes : Nat := 0
deriving DecidableEq, Repr

/-- What the generator still does with a frame once the yield returns. -/
inductive Deferred where
  | nothing
  | entry (declared : Nat)
  | payload (atEnd : Bool)
deriving DecidableEq, Repr

namespace Progress

def checkPayload (progress : Progress) (current : OpenPayload) (payload : PayloadChunk) :
    Except CodecError (Progress × Deferred) := do
  let index ← parseDecimal payload.entryIndexDecimal "payload.entryIndexDecimal"
  let offset ← parseDecimal payload.chunkOffsetDecimal "payload.chunkOffsetDecimal"
  let received := current.received + payload.data.length
  if index ≠ current.entryIndex ∨ offset ≠ current.received ∨ payload.data.length = 0 ∨
      payload.data.length > maxPayloadChunk then
    .error (framing "payload chunk is not contiguous or bounded")
  else if received > current.declared then
    .error (framing "payload exceeds its declared length")
  else if payload.finalChunk ≠ decide (received = current.declared) then
    .error (framing "payload final-chunk marker is invalid")
  else
    .ok ({ progress with
        currentPayload := some { current with received := received }
        payloadBytes := progress.payloadBytes + payload.data.length },
      .payload (decide (received = current.declared)))

def checkComplete (progress : Progress) (complete : StreamComplete) :
    Except CodecError (Progress × Deferred) := do
  let emitted ← parseDecimal complete.emittedChangeCountDecimal "complete.emittedChangeCountDecimal"
  if emitted ≠ progress.expectedEntry then
    .error (framing "completion counts are invalid")
  else
    let bytes ← parseDecimal complete.payloadByteCountDecimal "complete.payloadByteCountDecimal"
    if bytes ≠ progress.payloadBytes then
      .error (framing "completion counts are invalid")
    else .ok ({ progress with sawComplete := true }, .nothing)

/-- The body of the loop up to the yield. -/
def check (progress : Progress) (frame : Frame) : Except CodecError (Progress × Deferred) :=
  if progress.sawComplete then .error (framing "received a frame after completion")
  else match frame with
  | .header header =>
    if progress.sawHeader ∨ progress.expectedEntry ≠ 0 ∨ progress.currentPayload.isSome then
      .error (framing "header must be the first frame")
    else do
      validateHeader header
      .ok ({ progress with sawHeader := true }, .nothing)
  | .entry entry =>
    if progress.sawHeader = false ∨ progress.currentPayload.isSome then
      .error (framing "entry arrived before the header or before its predecessor completed")
    else do
      let declared ← validateEntry entry progress.expectedEntry
      .ok (progress, .entry declared)
  | .payload payload =>
    match progress.currentPayload with
    | none => .error (framing "unexpected payload chunk")
    | some current =>
      if progress.sawHeader = false then .error (framing "unexpected payload chunk")
      else progress.checkPayload current payload
  | .complete complete =>
    if progress.sawHeader = false ∨ progress.currentPayload.isSome then
      .error (framing "completion arrived with an open entry")
    else progress.checkComplete complete
  | .empty => .error (framing "response frame is empty")

/-- The body of the loop after the yield. -/
def resume (progress : Progress) : Deferred → Progress
  | .nothing => progress
  | .entry declared =>
    if declared = 0 then { progress with expectedEntry := progress.expectedEntry + 1 }
    else { progress with currentPayload := some ⟨progress.expectedEntry, declared, 0⟩ }
  | .payload atEnd =>
    if atEnd then
      { progress with expectedEntry := progress.expectedEntry + 1, currentPayload := none }
    else progress

end Progress

inductive ExportError where
  | codec (error : CodecError)
  | stream (message : String)
deriving DecidableEq, Repr

/-- Where the generator is. -/
inductive Location where
  /-- Not started, or at a yield with this left to do. -/
  | suspended (deferred : Deferred)
  /-- Asleep on the promise that the next event resolves. -/
  | waiting
  /-- The promise is resolved, the generator has not run yet. -/
  | woken
  | finished
  | failed (error : ExportError)
deriving DecidableEq, Repr

/-- A sleeping generator is woken, anything else is left alone. -/
def Location.notified : Location → Location
  | .waiting => .woken
  | location => location

def maxFrameQueue : Nat := 4
def resumeFrameQueue : Nat := 2

structure Consumer where
  queue : List Frame := []
  streamError : Option String := none
  ended : Bool := false
  paused : Bool := false
  progress : Progress := {}
  location : Location := .suspended .nothing
deriving DecidableEq, Repr

namespace Consumer

def notify (consumer : Consumer) : Consumer :=
  { consumer with location := consumer.location.notified }

def onData (consumer : Consumer) (frame : Frame) : Consumer :=
  notify { consumer with
    queue := consumer.queue ++ [frame]
    paused := consumer.paused || decide (maxFrameQueue ≤ consumer.queue.length + 1) }

def onError (consumer : Consumer) (message : String) : Consumer :=
  notify { consumer with streamError := some message, ended := true }

def onEnd (consumer : Consumer) : Consumer :=
  notify { consumer with ended := true }

def conclude (consumer : Consumer) : Location :=
  match consumer.streamError with
  | some message => .failed (.stream message)
  | none =>
    if consumer.progress.sawHeader = false ∨ consumer.progress.sawComplete = false then
      .failed (.codec (framing "change-log stream ended before completion"))
    else .finished

/-- The generator runs from the head of its loop until it sleeps, yields or is over. A frame
that is yielded is returned too. -/
def advance (consumer : Consumer) : Consumer × Option Frame :=
  match consumer.queue with
  | [] =>
    if consumer.ended then ({ consumer with location := consumer.conclude }, none)
    else ({ consumer with location := .waiting }, none)
  | frame :: rest =>
    let taken := { consumer with
      queue := rest
      paused := consumer.paused && !decide (rest.length ≤ resumeFrameQueue) }
    match consumer.progress.check frame with
    | .error error => ({ taken with location := .failed (.codec error) }, none)
    | .ok (progress, deferred) =>
      ({ taken with progress := progress, location := .suspended deferred }, some frame)

/-- `next()`: only a suspended generator runs, any other finishes what it is at first. -/
def pull (consumer : Consumer) : Consumer × Option Frame :=
  match consumer.location with
  | .suspended deferred => advance { consumer with progress := consumer.progress.resume deferred }
  | _ => (consumer, none)

/-- The microtask of a resolved promise. -/
def tick (consumer : Consumer) : Consumer × Option Frame :=
  match consumer.location with
  | .woken => advance consumer
  | _ => (consumer, none)

end Consumer

inductive Event where
  | data (frame : Frame)
  | error (message : String)
  | close
  | pull
  | tick
deriving DecidableEq, Repr

/-- A consumer with what it was sent and what it has yielded so far. -/
structure Run where
  consumer : Consumer := {}
  received : List Frame := []
  yielded : List Frame := []
  errored : Bool := false
  closed : Bool := false
deriving DecidableEq, Repr

namespace Run

def ran (run : Run) (result : Consumer × Option Frame) : Run :=
  { run with consumer := result.1, yielded := run.yielded ++ result.2.toList }

/-- One event. A stream that has closed emits nothing more. -/
def step (run : Run) : Event → Run
  | .data frame =>
    if run.closed then run
    else { run with consumer := run.consumer.onData frame, received := run.received ++ [frame] }
  | .error message =>
    if run.closed then run
    else { run with consumer := run.consumer.onError message, errored := true }
  | .close => { run with consumer := run.consumer.onEnd, closed := true }
  | .pull => run.ran run.consumer.pull
  | .tick => run.ran run.consumer.tick

def Over (run : Run) : Prop :=
  run.consumer.location = .finished ∨ ∃ error, run.consumer.location = .failed error

end Run

/-- `streamChangeLogExport` under a schedule of events. -/
def streamChangeLogExport (schedule : List Event) : Run := schedule.foldl Run.step {}

/-- A consumer that is pulled on and on. -/
def pulling (count : Nat) : List Event := (List.replicate count [Event.tick, .pull]).flatten

end OmegaEdit.ChangeLog
