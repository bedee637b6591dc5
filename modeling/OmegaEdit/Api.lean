import OmegaEdit.History
import OmegaEdit.Replacements

/-! The public calls on a session as one step function, and the runs it makes. A
step that faults has no successor: the process is gone, or the call has not
returned. With an identifier `replaceBytesCheckpointed` is
`omega_edit_replace_bytes_as_transform`. `omega_edit_replace_matches_bytes` leaves
the session to a script or to the replacement of all matches. -/
namespace OmegaEdit

inductive Call where
  | insertBytes (offset : Int) (bytes : BytesPointer) (length : Int)
  | delete (offset length : Int)
  | overwriteBytes (offset : Int) (bytes : BytesPointer) (length : Int)
  | replaceBytes (offset deleteLength : Int) (bytes : BytesPointer) (insertLength : Int)
  | replaceBytesCheckpointed (offset deleteLength : Int) (bytes : BytesPointer) (insertLength : Int)
      (transformId optionsJson : List Byte)
  | replaceAllBytes (pattern : BytesPointer) (patternLength : Int) (replacement : BytesPointer)
      (replacementLength : Int) (caseFolding : CaseFolding) (isReverse : Bool) (offset length : Int)
      (calls : Nat)
  | applyScript (ops : List Session.ScriptOp)
  | applyTransform (transform : ByteTransform) (offset length : Int)
  | beginTransaction
  | endTransaction
  | undoLastChange
  | redoLastUndo
  | createCheckpoint
  | checkoutCheckpoint (checkpointCount : Int)
  | destroyLastCheckpoint
  | restoreLastCheckpoint
  | restoreToChangeCount (changeCount : Int)
  | discardCheckpointFuture
  | clearChanges
  | pauseChanges
  | resumeChanges
  | setUndoSnapshotInterval (interval : Int)
  | setChangeInlinePayloadLimit (limit : Int)
  | createViewport (offset capacity : Int) (isFloating : Bool)
  | modifyViewport (index : Nat) (offset capacity : Int) (isFloating : Bool)
  | getViewportData (index : Nat)
  | destroyViewport (index : Nat)

namespace Session

def setUndoSnapshotInterval (session : Session) (interval : Int) : Session × Int :=
  if interval < 0 then (session, 0)
  else ({ session with undoSnapshotInterval := interval }, interval)

def setChangeInlinePayloadLimit (session : Session) (limit : Int) : Session × Int :=
  if limit < 0 then (session, 0)
  else ({ session with changeInlinePayloadLimit := limit }, limit)

/-- `OMEGA_VIEWPORT_CAPACITY_LIMIT`. -/
def viewportCapacityLimit : Int := 1048576

def validViewport (offset capacity : Int) : Bool :=
  decide (0 ≤ offset) && decide (0 < capacity) && decide (capacity ≤ viewportCapacityLimit) &&
    (safeAdd offset capacity).isSome

/-- A viewport pointer is the index of the viewport in the session. -/
def createViewport (session : Session) (offset capacity : Int) (isFloating : Bool) :
    Session × Int :=
  if validViewport offset capacity then
    let viewport : Viewport :=
      { offset, offsetAdjustment := 0, capacity := -capacity, length := 0, isFloating, data := [] }
    ({ session with viewports := session.viewports ++ [viewport] }, session.viewports.length)
  else (session, -1)

def modifyViewport (session : Session) (index : Nat) (offset capacity : Int) (isFloating : Bool) :
    Session × Int :=
  match session.viewports[index]? with
  | none => (session, -1)
  | some viewport =>
    if validViewport offset capacity then
      if viewport.offset ≠ offset ∨ viewport.getCapacity ≠ capacity ∨
          viewport.isFloating ≠ isFloating then
        let viewport := { viewport with
          offset, isFloating, offsetAdjustment := 0, capacity := -capacity, data := [] }
        ({ session with viewports := session.viewports.set index viewport }, 0)
      else (session, 0)
    else (session, -1)

/-- Refill a dirty viewport. A read that is refused leaves the viewport clean and empty. -/
def getViewportData (session : Session) (index : Nat) : Except Fault (Session × Int) :=
  match session.viewports[index]? with
  | none => .ok (session, -1)
  | some viewport =>
    if viewport.hasChanges then do
      let capacity := viewport.getCapacity
      let populated ←
        populateDataSegment session.top viewport.offset viewport.offsetAdjustment capacity
      let data := populated.getD []
      let viewport := { viewport with capacity, length := data.length, data }
      .ok ({ session with viewports := session.viewports.set index viewport },
        if populated.isSome then 0 else -1)
    else .ok (session, 0)

def destroyViewport (session : Session) (index : Nat) : Session × Int :=
  ({ session with viewports := session.viewports.eraseIdx index }, 0)

/-- One call: the session it leaves and its result. -/
def step (session : Session) : Call → Except Fault (Session × Int)
  | .insertBytes offset bytes length => session.insertBytes offset bytes length
  | .delete offset length => session.delete offset length
  | .overwriteBytes offset bytes length => session.overwriteBytes offset bytes length
  | .replaceBytes offset deleteLength bytes insertLength =>
    session.replaceBytes offset deleteLength bytes insertLength
  | .replaceBytesCheckpointed offset deleteLength bytes insertLength transformId optionsJson =>
    session.replaceBytesCheckpointed offset deleteLength bytes insertLength transformId optionsJson
  | .replaceAllBytes pattern patternLength replacement replacementLength caseFolding isReverse offset
      length calls => do
    match ← replaceAllBytesDirectional session pattern patternLength replacement replacementLength
        caseFolding isReverse offset length calls with
    | none => .error .endless
    | some replaced => .ok (replaced.session, replaced.result)
  | .applyScript ops => session.applyScript ops
  | .applyTransform transform offset length => session.applyTransform transform offset length
  | .beginTransaction => .ok session.beginTransaction
  | .endTransaction => .ok session.endTransaction
  | .undoLastChange => session.undoLastChange
  | .redoLastUndo => session.redoLastUndo
  | .createCheckpoint => session.createCheckpoint
  | .checkoutCheckpoint checkpointCount => session.checkoutCheckpoint checkpointCount
  | .destroyLastCheckpoint => .ok session.destroyLastCheckpoint
  | .restoreLastCheckpoint => session.restoreLastCheckpoint
  | .restoreToChangeCount changeCount => session.restoreToChangeCount changeCount
  | .discardCheckpointFuture => .ok session.discardCheckpointFuture
  | .clearChanges => .ok session.clearChanges
  | .pauseChanges => .ok ({ session with changesPaused := true }, 0)
  | .resumeChanges => .ok ({ session with changesPaused := false }, 0)
  | .setUndoSnapshotInterval interval => .ok (session.setUndoSnapshotInterval interval)
  | .setChangeInlinePayloadLimit limit => .ok (session.setChangeInlinePayloadLimit limit)
  | .createViewport offset capacity isFloating =>
    .ok (session.createViewport offset capacity isFloating)
  | .modifyViewport index offset capacity isFloating =>
    .ok (session.modifyViewport index offset capacity isFloating)
  | .getViewportData index => session.getViewportData index
  | .destroyViewport index => .ok (session.destroyViewport index)

def runCalls : List Call → Session → Except Fault Session
  | [], session => .ok session
  | call :: rest, session => do
    let (session, _) ← session.step call
    runCalls rest session

end Session

end OmegaEdit
