import OmegaEdit.Checkpoint
import OmegaEdit.Library.Runs

/-! Undo and redo of transactions, and the edits built on them: replacing a
range, which takes itself back when its second half fails, and edit scripts. A
transaction is a run of changes with the same bit; undo never looks below the
top model for it, and redo never above. -/
namespace OmegaEdit

/-- The changes of the last transaction, oldest first. -/
def lastTransaction (changes : List Change) : List Change :=
  Runs.trailingRun Change.transactionBit changes

/-- The changes before the last transaction. -/
def beforeLastTransaction (changes : List Change) : List Change :=
  Runs.beforeTrailingRun Change.transactionBit changes

/-- Update the viewports for each undone change in turn. -/
def updateViewportsAll : List Change → List Viewport → Except Fault (List Viewport)
  | [], viewports => .ok viewports
  | change :: rest, viewports => do
    let viewports ← updateViewports change viewports
    updateViewportsAll rest viewports

namespace Session

def restoreSuspended (session : Session) (suspended : Nat) : Session :=
  session.withStack (session.stack.restoreSuspendedCheckpointModels suspended)

/-- Undo the last transaction of the top model. `suspended` models have been set aside and come
back if nothing is undone. -/
def undoTransaction (session : Session) (suspended : Nat) : Except Fault (Session × Int) := do
  let model := session.top
  let transaction := lastTransaction model.changes
  let remaining := beforeLastTransaction model.changes
  if transaction.any (fun change => decide (change.serial ≤ 0)) then
    .ok (session.restoreSuspended suspended, -1)
  else match ← undoChangesInModel transaction.reverse model.modelSegments with
    | none =>
      let rebuilt ← rebuildModelToChangeCount model model.changes.length
      .ok ((session.withTop rebuilt.1).restoreSuspended suspended, -1)
    | some segments =>
      let undone := transaction.map Change.negate
      let viewports ← updateViewportsAll undone.reverse session.viewports
      let session := session.withTop { model with
        changes := remaining
        changesUndone := undone ++ model.changesUndone
        modelSegments := segments
        modelSnapshots := model.modelSnapshots.upTo remaining.length }
      .ok ({ session with viewports }, (undone.head?.map Change.serial).getD 0)

def undoLastChange (session : Session) : Except Fault (Session × Int) :=
  if session.changesPaused then .ok (session, 0)
  else
    let (stack, suspended) := session.stack.suspendPlainCheckpointModelsForUndo
    let session := session.withStack stack
    match session.lastChange with
    | none => .ok (session.restoreSuspended suspended, 0)
    | some change =>
      if change.kind = .transform then
        let (undone, result) := session.undoTransformCheckpoint
        if undone.numCheckpoints = session.numCheckpoints then
          .ok (undone.restoreSuspended suspended, result)
        else .ok (undone, result)
      else session.undoTransaction suspended

/-- Drop the change that has just been redone from the undone changes. -/
def popUndone (session : Session) : Except Fault Session :=
  match session.top.changesUndone with
  | [] => .error .popEmpty
  | _ :: rest => .ok (session.withTop { session.top with changesUndone := rest })

/-- The redo loop. `pending` are the undone changes of the top model, which a redone change
leaves alone. -/
def redoTransaction : List Change → Session → Except Fault (Session × Int)
  | [], session => .ok (session, 0)
  | change :: pending, session => do
    let updated ← session.update change
    if updated.result < 0 then
      -- the pointer stays in the list and shows what `update_` wrote through it
      let top := updated.session.top
      .ok (updated.session.withTop { top with changesUndone := updated.change :: pending },
        updated.result)
    else
      let session ← updated.session.popUndone
      match session.top.changesUndone with
      | [] => .ok (session, updated.result)
      | next :: _ =>
        if change.transactionBit = next.transactionBit then redoTransaction pending session
        else .ok (session, updated.result)

def resumePlainCheckpointModels (session : Session) : Session :=
  session.withStack session.stack.resumePlainCheckpointModelsForRedo

def redoLastUndo (session : Session) : Except Fault (Session × Int) :=
  if session.changesPaused then .ok (session, 0)
  else
    let session := session.resumePlainCheckpointModels
    match session.top.changesUndone with
    | [] => .ok (session, 0)
    | next :: _ => do
      let (session, result) ←
        if next.kind = .transform then .ok session.redoTransformCheckpoint
        else redoTransaction session.top.changesUndone session
      if result > 0 then .ok (session.resumePlainCheckpointModels, result)
      else .ok (session, result)

/-- Run a call inside a transaction of its own unless one is open. -/
def scopedTransaction (session : Session)
    (body : Session → Except Fault (Session × Int)) : Except Fault (Session × Int) :=
  if session.transactionState = 0 then do
    let (session, result) ← body session.beginTransaction.1
    .ok (session.endTransaction.1, result)
  else body session

/-- The result of a replace whose rollback failed. -/
def replaceRollbackFailed : Int := -101

def replaceBytes (session : Session) (offset deleteLength : Int) (bytes : BytesPointer)
    (insertLength : Int) : Except Fault (Session × Int) :=
  if validNonnegativeRange offset deleteLength = false ∨ insertLength < 0 then .ok (session, 0)
  else if bytes.isNone ∧ insertLength > 0 then .ok (session, -1)
  else if deleteLength = 0 ∧ insertLength = 0 then .ok (session, 0)
  else if deleteLength = 0 then session.insertBytes offset bytes insertLength
  else if insertLength = 0 then session.delete offset deleteLength
  else if deleteLength = insertLength then session.overwriteBytes offset bytes insertLength
  else session.scopedTransaction fun session => do
    let (session, deleteSerial) ← session.delete offset deleteLength
    if deleteSerial ≤ 0 then .ok (session, 0)
    else
      let (session, insertSerial) ← session.insertBytes offset bytes insertLength
      if insertSerial ≤ 0 then
        let (session, undone) ← session.undoLastChange
        if 0 ≥ undone then .ok (session, replaceRollbackFailed) else .ok (session, 0)
      else .ok (session, insertSerial)

inductive ScriptOpKind where
  | delete
  | insert
  | overwrite
  | replace
  deriving DecidableEq, Repr

structure ScriptOp where
  kind : ScriptOpKind
  offset : Int
  length : Int
  bytes : BytesPointer
  bytesLength : Int

def applyScriptOp (session : Session) (op : ScriptOp) : Except Fault (Session × Int) :=
  match op.kind with
  | .delete => if op.length > 0 then session.delete op.offset op.length else .ok (session, 0)
  | .insert =>
    if op.bytesLength > 0 then session.insertBytes op.offset op.bytes op.bytesLength
    else .ok (session, 0)
  | .overwrite =>
    if op.length < 0 ∨ op.bytesLength < 0 then .ok (session, -1)
    else if op.length > 0 ∧ op.bytesLength > 0 ∧ op.length ≠ op.bytesLength then .ok (session, -1)
    else
      let overwriteLength := if op.bytesLength > 0 then op.bytesLength else op.length
      if overwriteLength > 0 then session.overwriteBytes op.offset op.bytes overwriteLength
      else .ok (session, 0)
  | .replace => session.replaceBytes op.offset op.length op.bytes op.bytesLength

def applyScriptOps : List ScriptOp → Session → Except Fault (Session × Int)
  | [], session => .ok (session, 0)
  | op :: rest, session => do
    let (session, serial) ← session.applyScriptOp op
    if serial < 0 then .ok (session, -1)
    else if serial = 0 ∧ (op.length > 0 ∨ op.bytesLength > 0) then .ok (session, -1)
    else applyScriptOps rest session

def applyScript (session : Session) (ops : List ScriptOp) : Except Fault (Session × Int) :=
  if ops.isEmpty then .ok (session, 0) else session.scopedTransaction (applyScriptOps ops)

end Session

end OmegaEdit
