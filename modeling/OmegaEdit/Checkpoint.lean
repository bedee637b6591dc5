import OmegaEdit.Update

/-! Checkpoints: promoting a checkpoint file to a model, byte transforms, and the
moves of models and changes between the active stack and the retained future. A
transform lives in two places of the history: as the first change of the model
it made, or, once undone, in the undone changes of the model before it, carrying
the undone changes of its own model. Removing the files of discarded models is
not modelled: no file is removed while a change or model still refers to it. -/
namespace OmegaEdit

/-- The identifier `omega_edit_apply_transform` records: "callback". -/
def callbackTransformId : List Byte := [99, 97, 108, 108, 98, 97, 99, 107]

/-- `append_json_escaped_string_` on one byte. -/
def jsonEscapedByte (byte : Byte) : List Byte :=
  let hexDigit (n : Nat) : Byte := if n < 10 then (48 + n).toUInt8 else (87 + n).toUInt8
  if byte = 34 then [92, 34]
  else if byte = 92 then [92, 92]
  else if byte = 8 then [92, 98]
  else if byte = 12 then [92, 102]
  else if byte = 10 then [92, 110]
  else if byte = 13 then [92, 114]
  else if byte = 9 then [92, 116]
  else if byte < 32 then
    [92, 117, 48, 48, hexDigit (byte.toNat / 16), hexDigit (byte.toNat % 16)]
  else [byte]

/-- The payload of a transform: its identifier and arguments as a JSON object. -/
def transformChangeDataJson (transformId optionsJson : List Byte) : List Byte :=
  -- {"transformId":"
  [123, 34, 116, 114, 97, 110, 115, 102, 111, 114, 109, 73, 100, 34, 58, 34] ++
    transformId.flatMap jsonEscapedByte ++
    -- ","args":
    [34, 44, 34, 97, 114, 103, 115, 34, 58] ++
    (if optionsJson = [] then [123, 125] else optionsJson) ++ [125]

/-- What `transform_` stores for an empty identifier: "transform". -/
def defaultTransformId : List Byte := [116, 114, 97, 110, 115, 102, 111, 114, 109]

def transformChange (serial offset length : Int) (transformId optionsJson : List Byte)
    (replacementLength fileSizeBefore fileSizeAfter : Int) (checkpointFile : CheckpointFile)
    (transactionBit : Bool) : Option Change :=
  if serial ≤ 0 ∨ validNonnegativeRange offset length = false ∨ replacementLength < 0 ∨
      fileSizeBefore < 0 ∨ fileSizeAfter < 0 then none
  else do
    let transformId := if transformId = [] then defaultTransformId else transformId
    let data ← populatePayloadInline (transformChangeDataJson transformId optionsJson)
    some
      { serial, transactionStartSerial := 0, offset, length, data, inverseData := .empty,
        kind := .transform, transactionBit, transformData := some
          { transformId, optionsJson, checkpointFile, replacementLength,
            computedFileSizeBefore := fileSizeBefore, computedFileSizeAfter := fileSizeAfter },
        preservedChangesUndone := [] }

/-- A model over a checkpoint file. -/
def checkpointModel (file : CheckpointFile) (changeSerialBase fileSize : Int)
    (changes changesUndone : List Change) : Model :=
  { file := some file, changeSerialBase, changes, changesUndone,
    modelSegments := initializeModelSegments fileSize, modelSnapshots := [] }

namespace Session

/-- Reserve a temporary file holding `bytes`. -/
def createFile (session : Session) (bytes : List Byte) : Session × CheckpointFile :=
  ({ session with nextFile := session.nextFile + 1 }, ⟨session.nextFile, bytes⟩)

/-- Promote a checkpoint file without a transform. -/
def promotePlain (session : Session) (file : CheckpointFile) (fileSize : Int) : Session × Int :=
  if fileSize < 0 then (session, -1)
  else
    let stack := session.stack.push (checkpointModel file session.numChanges fileSize [] [])
    (session.withStack stack.discardCheckpointFuture, 0)

/-- Promote a checkpoint file made by a transform: a new edit, so the retained history goes. -/
def promoteTransform (session : Session) (file : CheckpointFile) (fileSize : Int)
    (change : Change) : Session × Int :=
  if fileSize < 0 then (session, -1)
  else if change.serial ≠ session.numChanges + 1 then (session, -1)
  else
    let change := session.assignTransactionStartSerial change
    let stack := session.stack.push (checkpointModel file session.numChanges fileSize [change] [])
    let session := session.withStack stack.freeChangesUndone.discardCheckpointFuture
    ({ session with viewports := markAllViewportsChanged session.viewports }, change.serial)

/-- Write the file of a transform, record the transform and promote the file. -/
def promoteNewTransform (session : Session) (bytes : List Byte) (offset length : Int)
    (transformId optionsJson : List Byte) (replacementLength fileSizeBefore fileSizeAfter : Int) :
    Session × Int :=
  let (session, file) := session.createFile bytes
  let serial := session.nextChangeSerial
  let (session, transactionBit) := session.determineChangeTransactionBit
  match transformChange serial offset length transformId optionsJson replacementLength fileSizeBefore
      fileSizeAfter file transactionBit with
  | none => (session, -1)
  | some change => session.promoteTransform file fileSizeAfter change

def createCheckpoint (session : Session) : Except Fault (Session × Int) := do
  match ← saveSegmentToFile session.top 0 0 with
  | none => .ok (session, -1)
  | some bytes =>
    let fileSize := session.computedFileSize
    let (session, file) := session.createFile bytes
    let (session, result) := session.promotePlain file fileSize
    .ok (session, if result = 0 then 0 else -1)

def applyTransformCheckpointed (session : Session) (transform : ByteTransform)
    (offset length : Int) (transformId optionsJson : List Byte) : Except Fault (Session × Int) :=
  if offset < 0 then .ok (session, -1)
  else if session.changesPaused then .ok (session, -1)
  else
    let fileSize := session.computedFileSize
    if fileSize < 0 ∨ offset > fileSize then .ok (session, -1)
    else do
      let effectiveLength := if length ≤ 0 then fileSize - offset else min length (fileSize - offset)
      match ← saveSegmentTransformed session.top transform offset effectiveLength with
      | none => .ok (session, -1)
      | some bytes =>
        let (session, serial) := session.promoteNewTransform bytes offset effectiveLength transformId
          optionsJson effectiveLength fileSize fileSize
        .ok (session, if serial < 0 then -1 else serial)

def applyTransform (session : Session) (transform : ByteTransform) (offset length : Int) :
    Except Fault (Session × Int) := do
  let (session, result) ←
    session.applyTransformCheckpointed transform offset length callbackTransformId []
  .ok (session, if result > 0 then 0 else -1)

end Session

namespace Session

/-- The last change of the top model is a transform: drop its model and keep the change, with
the undone changes of its model, in the model below. -/
def undoTransformCheckpoint (session : Session) : Session × Int :=
  match session.stack.below, session.lastChange with
  | previous :: below, some change =>
    if change.kind ≠ .transform then (session, 0)
    else if change.transformData.isNone then (session, -1)
    else if change.serial ≤ 0 then
      (session.withStack { session.stack with below, top := previous }, -1)
    else
      let undone := { change.negate with preservedChangesUndone := session.top.changesUndone }
      let previous := { previous with changesUndone := undone :: previous.changesUndone }
      ({ session.withStack { session.stack with below, top := previous } with
          viewports := markAllViewportsChanged session.viewports }, undone.serial)
  | _, _ => (session, 0)

def redoTransformCheckpoint (session : Session) : Session × Int :=
  match session.top.changesUndone with
  | [] => (session, 0)
  | change :: rest =>
    match change.kind, change.transformData with
    | .transform, some transformData =>
      if transformData.computedFileSizeAfter < 0 then (session, -1)
      else if change.serial ≥ 0 then (session, -1)
      else if -change.serial ≠ session.numChanges + 1 then (session, -1)
      else
        let redone := { change.negate with preservedChangesUndone := [] }
        let model := checkpointModel transformData.checkpointFile session.numChanges
          transformData.computedFileSizeAfter [redone] change.preservedChangesUndone
        let session := session.withTop { session.top with changesUndone := rest }
        ({ session.withStack (session.stack.push model) with
            viewports := markAllViewportsChanged session.viewports }, redone.serial)
    | _, _ => (session, 0)

end Session

namespace ModelStack

/-- Set aside the models above the last one that has changes of its own; the walk stops at the
original model. The number of models moved comes along. -/
def suspendModels : List Model → Model → List Model → ModelStack × Nat
  | [], top, future => (⟨[], top, future⟩, 0)
  | previous :: below, top, future =>
    if top.changes.isEmpty then
      let suspended := suspendModels below previous (top :: future)
      (suspended.1, suspended.2 + 1)
    else (⟨previous :: below, top, future⟩, 0)

def suspendPlainCheckpointModelsForUndo (stack : ModelStack) : ModelStack × Nat :=
  suspendModels stack.below stack.top stack.future

def restoreSuspendedCheckpointModels : Nat → ModelStack → ModelStack
  | 0, stack => stack
  | count + 1, stack =>
    match stack.future with
    | [] => stack
    | next :: future =>
      restoreSuspendedCheckpointModels count ({ stack with future }.push next)

/-- Re-attach the future models that begin at the present change count and hold no transform of
their own. -/
def resumeModels (below : List Model) (top : Model) : List Model → ModelStack
  | [] => ⟨below, top, []⟩
  | next :: future =>
    if next.checkpointSnapshotChangeCount ≠ 0 ∨ top.numChanges ≠ next.changeSerialBase then
      ⟨below, top, next :: future⟩
    else resumeModels (top :: below) next future

def resumePlainCheckpointModelsForRedo (stack : ModelStack) : ModelStack :=
  resumeModels stack.below stack.top stack.future

end ModelStack

namespace Model

/-- Move all but the first `keepCount` changes to the undone changes. -/
def moveChangesToUndo (model : Model) (keepCount : Nat) : Option Model :=
  if keepCount > model.changes.length then none
  else
    let moved := model.changes.drop keepCount
    if moved.isEmpty then some model
    else if moved.any (fun change => decide (change.serial ≤ 0)) then none
    else some { model with
      changes := model.changes.take keepCount
      changesUndone := moved.map Change.negate ++ model.changesUndone
      modelSnapshots := model.modelSnapshots.upTo keepCount }

/-- The serials of the next undone changes continue the active ones. -/
def serialsLineUp (next : Int) : List Change → Bool
  | [] => true
  | change :: rest => decide (change.serial = -next) && serialsLineUp (next + 1) rest

/-- Move undone changes back until `targetCount` are active. The segments are not touched. -/
def restoreChangesFromUndo (model : Model) (targetCount : Nat) : Option Model :=
  if targetCount < model.changes.length then none
  else
    let restoreCount := targetCount - model.changes.length
    if restoreCount > model.changesUndone.length then none
    else
      let restored := model.changesUndone.take restoreCount
      if serialsLineUp (model.changeSerialBase + model.changes.length + 1) restored then
        some { model with
          changes := model.changes ++ restored.map Change.negate
          changesUndone := model.changesUndone.drop restoreCount }
      else none

end Model

namespace ModelStack

/-- Move models between the active and the future stack until `count` checkpoints are active. -/
def rewindTo : List Model → Model → List Model → Nat → ModelStack
  | [], top, future, _ => ⟨[], top, future⟩
  | previous :: below, top, future, count =>
    if below.length + 1 > count then rewindTo below previous (top :: future) count
    else ⟨previous :: below, top, future⟩

def advanceTo (below : List Model) (top : Model) : List Model → Nat → ModelStack
  | [], _ => ⟨below, top, []⟩
  | next :: future, count =>
    if below.length < count then advanceTo (top :: below) next future count
    else ⟨below, top, next :: future⟩

def moveTo (stack : ModelStack) (count : Nat) : ModelStack :=
  if stack.below.length > count then rewindTo stack.below stack.top stack.future count
  else advanceTo stack.below stack.top stack.future count

/-- The loop of checkout over the models below the top, the original first. `models` are the
remaining ones and `next` the change count the last of them has to reach. On a failure the models
done so far keep what was moved. -/
def restoreBelow : List Model → Int → List Model × Bool
  | [], _ => ([], true)
  | [model], next =>
    if next - model.changeSerialBase < 0 then ([model], false)
    else match model.restoreChangesFromUndo (next - model.changeSerialBase).toNat with
      | none => ([model], false)
      | some model => ([model], true)
  | model :: following :: rest, next =>
    let targetCount := following.changeSerialBase - model.changeSerialBase
    if targetCount < 0 then (model :: following :: rest, false)
    else match model.restoreChangesFromUndo targetCount.toNat with
      | none => (model :: following :: rest, false)
      | some model =>
        let restored := restoreBelow (following :: rest) next
        (model :: restored.1, restored.2)

end ModelStack

namespace Session

def checkoutCheckpoint (session : Session) (checkpointCount : Int) : Except Fault (Session × Int) :=
  if checkpointCount < 0 then .ok (session, -1)
  else if checkpointCount > session.numCheckpoints + session.numFutureCheckpoints then
    .ok (session, -1)
  else if checkpointCount = session.numCheckpoints then .ok (session, 0)
  else if checkpointCount = 0 ∧ session.originalFileSize < 0 then .ok (session, -1)
  else
    let originalSegments := initializeModelSegments session.originalFileSize
    let stack := session.stack.moveTo checkpointCount.toNat
    let restored := ModelStack.restoreBelow stack.below.reverse stack.top.changeSerialBase
    let stack := { stack with below := restored.1.reverse }
    if restored.2 = false then .ok (session.withStack stack, -1)
    else if checkpointCount = 0 then
      match stack.top.moveChangesToUndo 0 with
      | none => .ok (session.withStack stack, -1)
      | some root =>
        let stack := { stack with top := { root with modelSegments := originalSegments } }
        .ok ({ session.withStack stack with viewports := markAllViewportsChanged session.viewports },
          0)
    else do
      let keepCount := stack.top.checkpointSnapshotChangeCount
      match stack.top.moveChangesToUndo keepCount with
      | none => .ok (session.withStack stack, -1)
      | some model =>
        let (model, result) ← rebuildModelToChangeCount model keepCount
        let session := session.withStack { stack with top := model }
        if result ≠ 0 then .ok (session, -1)
        else .ok ({ session with viewports := markAllViewportsChanged session.viewports }, 0)

def destroyLastCheckpoint (session : Session) : Session × Int :=
  match session.stack.below with
  | [] => (session, -1)
  | previous :: below =>
    ({ session with
        stack := ⟨below, previous, []⟩
        viewports := markAllViewportsChanged session.viewports }, 0)

def restoreLastCheckpoint (session : Session) : Except Fault (Session × Int) :=
  match session.stack.below with
  | [] => .ok (session, -1)
  | _ :: _ => do
    let keepCount := session.top.checkpointSnapshotChangeCount
    let model := { session.top with
      changes := session.top.changes.take keepCount
      changesUndone := [] }
    let (model, result) ← rebuildModelToChangeCount model keepCount
    let session := session.withTop model
    if result ≠ 0 then .ok (session, -1)
    else .ok ({ session with viewports := markAllViewportsChanged session.viewports }, 0)

end Session

namespace ModelStack

/-- Discard the models that begin after `changeCount`, or at it with a transform. -/
def discardAbove : List Model → Model → Int → List Model × Model × Bool
  | [], top, _ => ([], top, false)
  | previous :: below, top, changeCount =>
    if changeCount < top.changeSerialBase ∨
        (changeCount = top.changeSerialBase ∧ top.checkpointSnapshotChangeCount > 0) then
      let discarded := discardAbove below previous changeCount
      (discarded.1, discarded.2.1, true)
    else (previous :: below, top, false)

end ModelStack

namespace Session

def restoreToChangeCount (session : Session) (changeCount : Int) : Except Fault (Session × Int) :=
  if changeCount < 0 ∨ changeCount > session.numChanges then .ok (session, -1)
  else do
    let (below, top, discarded) :=
      ModelStack.discardAbove session.stack.below session.top changeCount
    let keepCount := changeCount - top.changeSerialBase
    let restored := discarded || decide (keepCount < top.changes.length) ||
      !top.changesUndone.isEmpty
    let model := { top with
      changes := top.changes.take keepCount.toNat
      changesUndone := [] }
    let (model, result) ← rebuildModelToChangeCount model keepCount
    let session := session.withStack { session.stack with below, top := model }
    if result ≠ 0 then .ok (session, -1)
    else if restored then
      .ok ({ session with viewports := markAllViewportsChanged session.viewports }, 0)
    else .ok (session, 0)

def discardCheckpointFuture (session : Session) : Session × Int :=
  (session.withStack session.stack.discardCheckpointFuture, session.numFutureCheckpoints)

def clearChanges (session : Session) : Session × Int :=
  let root := session.stack.bottom
  let root := { root with
    modelSegments := initializeModelSegments root.fileBytes.length
    changes := [], changesUndone := [], modelSnapshots := [] }
  ({ session with
      stack := ⟨[], root, []⟩
      viewports := markAllViewportsChanged session.viewports }, 0)

end Session

end OmegaEdit
