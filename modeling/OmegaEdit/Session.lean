import OmegaEdit.Viewport

/-! The session: a stack of models, the models set aside as future checkpoints,
and the flags of the transaction in progress. The stack is never empty, so it is
kept as a top model with the models below it; a vector whose back is its active
end is a list whose head is that end. The change lists of a model follow one
another: `changes`, oldest first, and then `changesUndone`, next to be redone
first. Numbers of changes are unbounded integers except where the code tests
them. Event callbacks and search contexts are not modelled. -/
namespace OmegaEdit

/-- Ordered by change count, as in `std::map`. -/
abbrev Snapshots := List (Int × List ModelSegment)

structure Model where
  file : Option CheckpointFile
  changeSerialBase : Int
  changes : List Change
  changesUndone : List Change
  modelSegments : List ModelSegment
  modelSnapshots : Snapshots

structure ModelStack where
  below : List Model
  top : Model
  future : List Model

structure Session where
  stack : ModelStack
  undoSnapshotInterval : Int
  changeInlinePayloadLimit : Int
  changesPaused : Bool
  transactionOpened : Bool
  transactionInProgress : Bool
  viewports : List Viewport
  /-- The name the next temporary file gets. -/
  nextFile : Nat

/-- `OMEGA_MEMORY_BUFFER_LIMIT`, also the default inline payload limit. -/
def memoryBufferLimit : Int := 67108864

/-- `OMEGA_IO_BUFFER_SIZE`. -/
def ioBufferSize : Int := 65536

namespace Snapshots

/-- The snapshots with at most `count` changes. -/
def upTo (count : Int) (snapshots : Snapshots) : Snapshots :=
  snapshots.takeWhile (fun snapshot => snapshot.1 ≤ count)

def put (count : Int) (segments : List ModelSegment) (snapshots : Snapshots) : Snapshots :=
  snapshots.takeWhile (fun snapshot => snapshot.1 < count) ++
    (count, segments) :: snapshots.dropWhile (fun snapshot => snapshot.1 ≤ count)

end Snapshots

namespace Model

def fileBytes (model : Model) : List Byte :=
  match model.file with
  | none => []
  | some file => file.bytes

def computedFileSize (model : Model) : Int :=
  match model.modelSegments.getLast? with
  | none => 0
  | some last => (safeAdd last.computedOffset last.computedLength).getD (-1)

def numChanges (model : Model) : Int := model.changes.length + model.changeSerialBase

/-- A snapshot that begins with the transform that made it keeps that one change. -/
def checkpointSnapshotChangeCount (model : Model) : Nat :=
  match model.changes with
  | [] => 0
  | first :: _ =>
    match first.kind, first.transformData with
    | .transform, some transformData =>
      if model.file.map CheckpointFile.name = some transformData.checkpointFile.name then 1 else 0
    | _, _ => 0

def freeChangesUndone (model : Model) : Model := { model with changesUndone := [] }

end Model

namespace ModelStack

/-- The active models, the original first. -/
def models (stack : ModelStack) : List Model := stack.below.reverse ++ [stack.top]

def bottom (stack : ModelStack) : Model := stack.below.getLastD stack.top

/-- All models in the order of the history they hold. -/
def order (stack : ModelStack) : List Model := stack.models ++ stack.future

def freeChangesUndone (stack : ModelStack) : ModelStack :=
  { stack with
    below := stack.below.map Model.freeChangesUndone
    top := stack.top.freeChangesUndone }

def discardCheckpointFuture (stack : ModelStack) : ModelStack := { stack with future := [] }

def push (stack : ModelStack) (model : Model) : ModelStack :=
  { stack with below := stack.top :: stack.below, top := model }

end ModelStack

namespace Session

def top (session : Session) : Model := session.stack.top

def withTop (session : Session) (model : Model) : Session :=
  { session with stack := { session.stack with top := model } }

def withStack (session : Session) (stack : ModelStack) : Session := { session with stack }

def computedFileSize (session : Session) : Int := session.top.computedFileSize

def numChanges (session : Session) : Int := session.top.numChanges

def numCheckpoints (session : Session) : Int := session.stack.below.length

def numFutureCheckpoints (session : Session) : Int := session.stack.future.length

def originalFileSize (session : Session) : Int :=
  match session.stack.bottom.file with
  | none => -1
  | some file => file.bytes.length

def lastChange (session : Session) : Option Change := session.top.changes.getLast?

/-- The bit of the last change of the top model; set when it has none. -/
def transactionBit (session : Session) : Bool :=
  match session.lastChange with
  | none => true
  | some change => change.transactionBit

def transactionState (session : Session) : Nat :=
  if session.transactionOpened then (if session.transactionInProgress then 2 else 1) else 0

def beginTransaction (session : Session) : Session × Int :=
  if session.transactionState ≠ 0 then (session, -1)
  else ({ session with transactionOpened := true }, 0)

def endTransaction (session : Session) : Session × Int :=
  if session.transactionState = 0 then (session, -1)
  else ({ session with transactionOpened := false, transactionInProgress := false }, 0)

def determineChangeTransactionBit (session : Session) : Session × Bool :=
  match session.transactionState with
  | 0 => (session, !session.transactionBit)
  | 1 => ({ session with transactionInProgress := true }, !session.transactionBit)
  | _ => (session, session.transactionBit)

def nextChangeSerial (session : Session) : Int :=
  if session.numChanges < int64Max then session.numChanges + 1 else 0

end Session

/-- The bytes of a file a session is opened on; `FTELL` reports their number. -/
structure OriginalFile where
  bytes : List Byte
  small : (bytes.length : Int) ≤ int64Max

/-- `omega_edit_create_session` with the two settings of the session already made. -/
def createSession (original : Option OriginalFile) (interval limit : Int) : Session :=
  let file := original.map (fun original => CheckpointFile.mk 0 original.bytes)
  let model : Model :=
    { file, changeSerialBase := 0, changes := [], changesUndone := [],
      modelSegments := initializeModelSegments
        (match original with
          | none => 0
          | some original => original.bytes.length), modelSnapshots := [] }
  { stack := { below := [], top := model, future := [] }
    undoSnapshotInterval := interval, changeInlinePayloadLimit := limit, changesPaused := false,
    transactionOpened := false, transactionInProgress := false, viewports := [], nextFile := 1 }

end OmegaEdit
