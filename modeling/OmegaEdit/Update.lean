import OmegaEdit.Reads

/-! Applying changes to the top model: the common path `update_` of every edit
and every redone change, the replay of a model from a snapshot, and the
primitive edits. A step returns the session it leaves and the code's result;
positive results are serials. -/
namespace OmegaEdit

/-- Replay the changes of the top model from index `start` on. The index runs past the changes
only if the code reads past the end of the vector. -/
def replayChanges (changes : List Change) : Nat → Nat → List ModelSegment →
    Except Fault (List ModelSegment × Int)
  | _, 0, segments => .ok (segments, 0)
  | start, count + 1, segments =>
    match changes[start]? with
    | none => .error .indexOutOfRange
    | some change => do
      match ← updateModel change segments with
      | none => .ok (segments, -1)
      | some segments => replayChanges changes (start + 1) count segments

def rebuildModelToChangeCount (model : Model) (remainingCount : Int) :
    Except Fault (Model × Int) := do
  let snapshots := model.modelSnapshots.upTo remainingCount
  let origin := match snapshots.getLast? with
    | some snapshot => snapshot
    | none => (0, initializeModelSegments model.fileBytes.length)
  let replayed ← replayChanges model.changes origin.1.toNat (remainingCount - origin.1).toNat origin.2
  .ok ({ model with modelSnapshots := snapshots, modelSegments := replayed.1 }, replayed.2)

namespace Session

def assignTransactionStartSerial (session : Session) (change : Change) : Change :=
  if change.transactionStartSerial > 0 ∨ session.transactionState = 0 then change
  else
    let start := match session.lastChange with
      | some previous =>
        if previous.transactionBit = change.transactionBit ∧ previous.transactionStartSerial > 0 then
          previous.transactionStartSerial
        else change.serial
      | none => change.serial
    { change with transactionStartSerial := start }

/-- What `update_` leaves: the session, the change as the caller's pointer sees it afterwards and
the result. -/
structure Updated where
  session : Session
  change : Change
  result : Int

/-- Record an applied change in the top model. -/
def recordChange (session : Session) (change : Change) (segments : List ModelSegment) : Session :=
  let top := session.top
  let changes := top.changes ++ [change]
  let count : Int := changes.length
  let snapshots :=
    if session.undoSnapshotInterval > 0 ∧ count % session.undoSnapshotInterval = 0 then
      top.modelSnapshots.put count segments
    else top.modelSnapshots
  session.withTop { top with changes, modelSegments := segments, modelSnapshots := snapshots }

def update (session : Session) (change : Change) : Except Fault Updated :=
  if change.offset ≤ session.computedFileSize then
    if change.serial = 0 ∨ change.serial = int64Min then .ok ⟨session, change, -1⟩
    else do
      let serialWasNegative := decide (change.serial < 0)
      let applied := if serialWasNegative then change.negate else change
      let session :=
        if !serialWasNegative && !session.top.changesUndone.isEmpty then
          session.withStack session.stack.freeChangesUndone
        else session
      let applied := session.assignTransactionStartSerial applied
      match ← updateModel applied session.top.modelSegments with
      | none => .ok ⟨session, { applied with serial := change.serial }, -1⟩
      | some segments =>
        let session := session.recordChange applied segments
        let session :=
          if serialWasNegative then session
          else session.withStack session.stack.discardCheckpointFuture
        let viewports ← updateViewports applied session.viewports
        .ok ⟨{ session with viewports }, applied, applied.serial⟩
  else .ok ⟨session, change, -1⟩

/-- `update_` on a change that may not have been built. -/
def updateNew (session : Session) : Option Change → Except Fault (Session × Int)
  | none => .ok (session, -1)
  | some change => do
    let updated ← session.update change
    .ok (updated.session, updated.result)

/-- Capture a range of the content as the payload of a change; `none` is a failure. -/
def captureSessionRangePayload (session : Session) (offset length : Int) :
    Except Fault (Option Payload) :=
  if offset < 0 ∨ length < 0 then .ok none
  else if length = 0 then .ok (some .empty)
  else if length ≤ min session.changeInlinePayloadLimit memoryBufferLimit then do
    match ← saveSegmentToBytes session.top offset length with
    | none => .ok none
    | some bytes => .ok (if (bytes.length : Int) = length then some ⟨.inline, bytes⟩ else none)
  else do
    match ← streamRange session.top offset length with
    | none => .ok none
    | some bytes => .ok (if (bytes.length : Int) = length then some ⟨.fileBacked, bytes⟩ else none)

def delete (session : Session) (offset length : Int) : Except Fault (Session × Int) :=
  if validNonnegativeRange offset length = false then .ok (session, -1)
  else if length = 0 then .ok (session, 0)
  else
    let computedFileSize := session.computedFileSize
    if computedFileSize < 0 then .ok (session, -1)
    else
      let serial := session.nextChangeSerial
      if serial ≤ 0 then .ok (session, -1)
      else if session.changesPaused ∨ offset ≥ computedFileSize then .ok (session, 0)
      else do
        let effectiveLength := min length (computedFileSize - offset)
        match ← session.captureSessionRangePayload offset effectiveLength with
        | none => .ok (session, -1)
        | some deleted =>
          let (session, transactionBit) := session.determineChangeTransactionBit
          session.updateNew (del serial offset effectiveLength deleted transactionBit)

def insertBytes (session : Session) (offset : Int) (bytes : BytesPointer) (length : Int) :
    Except Fault (Session × Int) :=
  if validNonnegativeRange offset length = false then .ok (session, -1)
  else if length = 0 then .ok (session, 0)
  else match bytes with
    | none => .ok (session, -1)
    | some memory =>
      let computedFileSize := session.computedFileSize
      if computedFileSize < 0 then .ok (session, -1)
      else if addOverflows computedFileSize length then .ok (session, -1)
      else
        let serial := session.nextChangeSerial
        if serial ≤ 0 then .ok (session, -1)
        else if session.changesPaused = false ∧ offset ≤ computedFileSize then
          let (session, transactionBit) := session.determineChangeTransactionBit
          session.updateNew (ins serial offset (readMemory memory length) length transactionBit)
        else .ok (session, 0)

def overwriteBytes (session : Session) (offset : Int) (bytes : BytesPointer) (length : Int) :
    Except Fault (Session × Int) :=
  if validNonnegativeRange offset length = false then .ok (session, -1)
  else if length = 0 then .ok (session, 0)
  else match bytes with
    | none => .ok (session, -1)
    | some memory =>
      let computedFileSize := session.computedFileSize
      if computedFileSize < 0 then .ok (session, -1)
      else
        let serial := session.nextChangeSerial
        if serial ≤ 0 then .ok (session, -1)
        else if session.changesPaused ∨ offset > computedFileSize then .ok (session, 0)
        else do
          let replacedLength :=
            if offset < computedFileSize then min length (computedFileSize - offset) else 0
          match ← session.captureSessionRangePayload offset replacedLength with
          | none => .ok (session, -1)
          | some replaced =>
            let (session, transactionBit) := session.determineChangeTransactionBit
            session.updateNew
              (ovr serial offset (readMemory memory length) length replaced transactionBit)

end Session

end OmegaEdit
