import OmegaEdit.Library.Transition
import OmegaEdit.Library.Utf16

/-! The history that an editor keeps beside the native one: stacks of active and undone
transactions, and the depth at which the content was saved. A transaction is an object; a
number stands for its identity, so that two transactions with the same record differ. -/
namespace OmegaEdit.EditorHistory
open Utf16

def maxSafeInteger : Int := 9007199254740991

inductive ChangeRecordKind where
  | insert
  | delete
  | overwrite
  | replace
  | transform
deriving DecidableEq, Repr

structure ChangeRecord where
  serial : Nat
  kind : ChangeRecordKind
  offset : Nat
  length : Nat
  data : Text
  groupId : Option String
deriving DecidableEq, Repr

inductive SearchCaseFolding where
  | none
  | ascii
  | windows1252
  | cp437
  | ebcdic037
  | macRoman
deriving DecidableEq, Repr

/-- `EditorCheckpointReplaceAllTransaction`. -/
structure CheckpointReplaceAll where
  query : Text
  isHex : Bool
  caseFolding : SearchCaseFolding
  data : Text
deriving DecidableEq, Repr

inductive TransactionRecord where
  | tracked (changeCount : Nat)
  | untracked
  | checkpointReplaceAll (transaction : CheckpointReplaceAll)
deriving DecidableEq, Repr

structure Transaction where
  identity : Nat
  record : TransactionRecord
deriving DecidableEq, Repr

/-- `EditorHistoryController`. The last field is the identity of the next object. -/
structure Controller where
  savedChangeDepth : Nat
  changeLog : List ChangeRecord
  undoneChangeLog : List ChangeRecord
  transactionLog : List Transaction
  undoneTransactionLog : List Transaction
  nextSyntheticGroupId : Nat
  milestoneDepths : List Nat
  allocated : Nat
deriving DecidableEq, Repr

structure EditState where
  canUndo : Bool
  canRedo : Bool
  undoCount : Nat
  redoCount : Nat
  isDirty : Bool
  savedChangeDepth : Nat
deriving DecidableEq, Repr

inductive HistoryError where
  /-- The executor has rejected. -/
  | rejected
  | cannotCrossMilestone
  | nativeCounts
  | invalidSnapshot
  | outsideTimeline
deriving DecidableEq, Repr

/-- Whether the functions of an executor resolve. Those for milestones may be missing. -/
structure Executor where
  undoLocal : Bool
  redoLocal : Bool
  undoCheckpoint : Bool
  redoCheckpoint : Bool
  undoMilestone : Option Bool
  redoMilestone : Option Bool
deriving DecidableEq, Repr

def Executor.succeeding : Executor := ⟨true, true, true, true, some true, some true⟩

def Executor.undoes (executor : Executor) : TransactionRecord → Bool
  | .tracked _ => executor.undoLocal
  | .untracked => executor.undoLocal
  | .checkpointReplaceAll _ => executor.undoCheckpoint

def Executor.redoes (executor : Executor) : TransactionRecord → Bool
  | .tracked _ => executor.redoLocal
  | .untracked => executor.redoLocal
  | .checkpointReplaceAll _ => executor.redoCheckpoint

/-- What becomes of crossing a milestone. -/
def crossing : Option Bool → Option HistoryError
  | none => some .cannotCrossMilestone
  | some false => some .rejected
  | some true => none

/-- The changes that stay, and the target with those that have moved to it. -/
def moveLastChanges (source target : List ChangeRecord) (count : Nat) :
    List ChangeRecord × List ChangeRecord :=
  if source.isEmpty ∨ count = 0 then (source, target)
  else (source.take (source.length - count), target ++ source.drop (source.length - count))

def TransactionRecord.isCheckpoint : TransactionRecord → Bool
  | .checkpointReplaceAll _ => true
  | _ => false

namespace Controller

def initial : Controller := ⟨0, [], [], [], [], 1, [], 0⟩

def getEditState (history : Controller) : EditState where
  canUndo := decide (0 < history.transactionLog.length)
  canRedo := decide (0 < history.undoneTransactionLog.length)
  undoCount := history.transactionLog.length
  redoCount := history.undoneTransactionLog.length
  isDirty := decide (history.transactionLog.length ≠ history.savedChangeDepth)
  savedChangeDepth := history.savedChangeDepth

def discardRedoBranch (history : Controller) : Controller :=
  { history with
    undoneChangeLog := []
    undoneTransactionLog := []
    savedChangeDepth := min history.savedChangeDepth history.transactionLog.length
    milestoneDepths := history.milestoneDepths.filter (· ≤ history.transactionLog.length) }

def push (history : Controller) (record : TransactionRecord) : Controller :=
  { history with
    transactionLog := history.transactionLog ++ [⟨history.allocated, record⟩]
    allocated := history.allocated + 1 }

def recordLocalMutation (history : Controller) : Controller :=
  history.discardRedoBranch.push .untracked

def recordLocalChanges (history : Controller) (changes : List ChangeRecord) : Controller :=
  if changes.isEmpty then history
  else
    let history := history.discardRedoBranch
    { history with changeLog := history.changeLog ++ changes }.push (.tracked changes.length)

def recordLocalReplaceAll (history : Controller) (offsets : List Nat) (length : Nat) (data : Text) :
    Controller :=
  if offsets.isEmpty then history
  else
    let groupId := "replace-all-" ++ toString history.nextSyntheticGroupId
    { history with nextSyntheticGroupId := history.nextSyntheticGroupId + 1 }.recordLocalChanges
      (offsets.mapIdx fun index offset => ⟨index + 1, .replace, offset, length, data, some groupId⟩)

def recordCheckpointReplaceAll (history : Controller) (transaction : CheckpointReplaceAll) :
    Controller :=
  history.discardRedoBranch.push (.checkpointReplaceAll transaction)

def recordMilestone (history : Controller) : Controller :=
  let depth := history.transactionLog.length
  if 0 < depth ∧ history.milestoneDepths.getLast? ≠ some depth then
    { history with milestoneDepths := history.milestoneDepths ++ [depth] }
  else history

def markSaved (history : Controller) : Controller :=
  { history with savedChangeDepth := history.transactionLog.length }

/-- Move the last active transaction and its changes to the undone ones. -/
def moveToUndone (history : Controller) (transaction : Transaction) : Controller :=
  let (kept, undone) :=
    match transaction.record with
    | .tracked changeCount => moveLastChanges history.changeLog history.undoneChangeLog changeCount
    | _ => (history.changeLog, history.undoneChangeLog)
  { history with
    changeLog := kept
    undoneChangeLog := undone
    transactionLog := history.transactionLog.dropLast
    undoneTransactionLog := history.undoneTransactionLog ++ [transaction] }

/-- Move the last undone transaction and its changes back. -/
def moveToActive (history : Controller) (transaction : Transaction) : Controller :=
  let (kept, active) :=
    match transaction.record with
    | .tracked changeCount => moveLastChanges history.undoneChangeLog history.changeLog changeCount
    | _ => (history.undoneChangeLog, history.changeLog)
  { history with
    changeLog := active
    undoneChangeLog := kept
    transactionLog := history.transactionLog ++ [transaction]
    undoneTransactionLog := history.undoneTransactionLog.dropLast }

def undo (history : Controller) (executor : Executor) : Controller × Except HistoryError Bool :=
  match history.transactionLog.getLast? with
  | none => (history, .ok false)
  | some transaction =>
    let failed :=
      if history.transactionLog.length ∈ history.milestoneDepths then crossing executor.undoMilestone
      else none
    match failed with
    | some error => (history, .error error)
    | none =>
      if executor.undoes transaction.record then (history.moveToUndone transaction, .ok true)
      else (history, .error .rejected)

/-- A milestone is crossed after the transaction has moved. -/
def redo (history : Controller) (executor : Executor) : Controller × Except HistoryError Bool :=
  match history.undoneTransactionLog.getLast? with
  | none => (history, .ok false)
  | some transaction =>
    if executor.redoes transaction.record then
      let history := history.moveToActive transaction
      let failed :=
        if history.transactionLog.length ∈ history.milestoneDepths then
          crossing executor.redoMilestone
        else none
      match failed with
      | some error => (history, .error error)
      | none => (history, .ok true)
    else (history, .error .rejected)

/-- The number of transactions that the native session has too. -/
def nativeBacked (log : List Transaction) : Nat :=
  log.countP fun transaction => !transaction.record.isCheckpoint

def hasCheckpointReplaceAll (history : Controller) : Bool :=
  history.transactionLog.any (·.record.isCheckpoint) ||
    history.undoneTransactionLog.any (·.record.isCheckpoint)

/-- The native counts differ from those of the controller, and it can be rebuilt. -/
def diverges (history : Controller) (active undone : Nat) : Bool :=
  !(nativeBacked history.transactionLog == active &&
      nativeBacked history.undoneTransactionLog == undone) &&
    !history.hasCheckpointReplaceAll

/-- New objects without a record of their changes. -/
def opaques (first count : Nat) : List Transaction :=
  (List.range count).map fun index => ⟨first + index, .untracked⟩

def rebuild (history : Controller) (active undone : Nat) (currentStateIsSaved : Bool) : Controller :=
  { history with
    changeLog := []
    undoneChangeLog := []
    transactionLog := opaques history.allocated active
    undoneTransactionLog := opaques (history.allocated + active) undone
    savedChangeDepth := if currentStateIsSaved then active else 0
    milestoneDepths := []
    allocated := history.allocated + active + undone }

def isCount (count : Int) : Bool := decide (0 ≤ count ∧ count ≤ maxSafeInteger)

def reconcileNativeTransactionCounts (history : Controller)
    (activeTransactionCount undoneTransactionCount : Int) (currentStateIsSaved : Bool) :
    Controller × Except HistoryError Bool :=
  if !isCount activeTransactionCount || !isCount undoneTransactionCount then
    (history, .error .nativeCounts)
  else if history.diverges activeTransactionCount.toNat undoneTransactionCount.toNat then
    (history.rebuild activeTransactionCount.toNat undoneTransactionCount.toNat currentStateIsSaved,
      .ok true)
  else (history, .ok false)

/-- `fromSnapshot`: a controller as it was, with the milestones that are in range. -/
def fromSnapshot (snapshot : Controller) : Except HistoryError Controller :=
  let totalDepth := snapshot.transactionLog.length + snapshot.undoneTransactionLog.length
  if snapshot.nextSyntheticGroupId < 1 ∨ snapshot.savedChangeDepth > totalDepth then
    .error .invalidSnapshot
  else .ok { snapshot with milestoneDepths := snapshot.milestoneDepths.filter (· ≤ totalDepth) }

/-- A turn of the first loop of `fromSnapshotAtDepth`, which has its own copy of the move. -/
def rewindLast (history : Controller) (transaction : Transaction) : Controller :=
  let history := { history with transactionLog := history.transactionLog.dropLast }
  let history := match transaction.record with
    | .tracked changeCount =>
      let (kept, moved) := moveLastChanges history.changeLog history.undoneChangeLog changeCount
      { history with changeLog := kept, undoneChangeLog := moved }
    | _ => history
  { history with undoneTransactionLog := history.undoneTransactionLog ++ [transaction] }

/-- A turn of the second loop. -/
def advanceLast (history : Controller) (transaction : Transaction) : Controller :=
  let history := { history with undoneTransactionLog := history.undoneTransactionLog.dropLast }
  let history := match transaction.record with
    | .tracked changeCount =>
      let (kept, moved) := moveLastChanges history.undoneChangeLog history.changeLog changeCount
      { history with undoneChangeLog := kept, changeLog := moved }
    | _ => history
  { history with transactionLog := history.transactionLog ++ [transaction] }

/-- The first loop, which takes at most as many turns as there are active transactions. -/
def rewindTo (depth : Nat) : Nat → Controller → Controller
  | 0, history => history
  | turns + 1, history =>
    if history.transactionLog.length > depth then
      match history.transactionLog.getLast? with
      | none => history
      | some transaction => rewindTo depth turns (history.rewindLast transaction)
    else history

def advanceTo (depth : Nat) : Nat → Controller → Controller
  | 0, history => history
  | turns + 1, history =>
    if history.transactionLog.length < depth then
      match history.undoneTransactionLog.getLast? with
      | none => history
      | some transaction => advanceTo depth turns (history.advanceLast transaction)
    else history

/-- The lengths of the stacks are safe integers, so a depth between them is one. -/
def fromSnapshotAtDepth (snapshot : Controller) (transactionDepth : Int) :
    Except HistoryError Controller := do
  let history ← fromSnapshot snapshot
  let totalDepth := history.transactionLog.length + history.undoneTransactionLog.length
  if transactionDepth < 0 ∨ transactionDepth > totalDepth then .error .outsideTimeline
  else
    let history := history.rewindTo transactionDepth.toNat history.transactionLog.length
    .ok (history.advanceTo transactionDepth.toNat history.undoneTransactionLog.length)

end Controller

inductive Call where
  | recordLocalChanges (changes : List ChangeRecord)
  | recordLocalMutation
  | recordLocalReplaceAll (offsets : List Nat) (length : Nat) (data : Text)
  | recordCheckpointReplaceAll (transaction : CheckpointReplaceAll)
  | recordMilestone
  | markSaved
  | undo (executor : Executor)
  | redo (executor : Executor)
  | reconcile (activeTransactionCount undoneTransactionCount : Int) (currentStateIsSaved : Bool)
deriving DecidableEq, Repr

/-- What a call leaves, and what it returns or throws. A call without a result returns `true`. -/
def Controller.call (history : Controller) : Call → Controller × Except HistoryError Bool
  | .recordLocalChanges changes => (history.recordLocalChanges changes, .ok true)
  | .recordLocalMutation => (history.recordLocalMutation, .ok true)
  | .recordLocalReplaceAll offsets length data =>
    (history.recordLocalReplaceAll offsets length data, .ok true)
  | .recordCheckpointReplaceAll transaction =>
    (history.recordCheckpointReplaceAll transaction, .ok true)
  | .recordMilestone => (history.recordMilestone, .ok true)
  | .markSaved => (history.markSaved, .ok true)
  | .undo executor => history.undo executor
  | .redo executor => history.redo executor
  | .reconcile active undone saved => history.reconcileNativeTransactionCounts active undone saved

end OmegaEdit.EditorHistory
